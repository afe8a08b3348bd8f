import Konative.Ecs.SnapshotWrite
import Mathlib.Data.List.Induction
import Mathlib.Data.List.Nodup

/-!
# Writes that fail

`write_snapshot_bytes_file` as a function of what fails in it: the `open`, a write of the
stream (its flush included) after some bytes have reached the file, or the rename.  The
removal of the temporary file succeeds whenever it is tried.

This is what the step relation does as a whole.  The point of it is that an early return
can be seen: where a write has failed, the call returns without the removal that the failed
rename has, and leaves its temporary file behind.
-/

namespace Konative.Ecs

open FileSystem

/-! ## A call and its faults -/

/-- What fails in a call.  Nothing that comes after the first failure is tried. -/
structure Faults where
  opens : Bool
  /-- How many bytes reach the file before a write fails, when one does. -/
  failsAfter : Option Nat
  renames : Bool
deriving DecidableEq, Repr

/-- `write_snapshot_bytes_file(bytes, path, unique_suffix, version)`. -/
def writeSnapshotBytesFile (path : String) (c : WriteCall) (f : Faults) (fs : FileSystem String) :
    Except SnapshotFileError Nat × FileSystem String :=
  let temp := tempPath path c.uniqueSuffix
  if f.opens then
    match f.failsAfter with
    | some k => (.error .writeFailed, fs.written temp (c.image.take k))
    | none =>
        let fs := fs.written temp c.image
        match if f.renames then fs.rename temp path else none with
        | some fs' => (.ok c.bytes.length, fs')
        | none => (.error .renameFailed, fs.unlink temp)
  else (.error .openFailed, fs)

section Outcomes

variable {path : String} {c : WriteCall} {f : Faults} {fs fs' : FileSystem String}

theorem write_of_openFails (h : f.opens = false) :
    writeSnapshotBytesFile path c f fs = (.error .openFailed, fs) := by
  unfold writeSnapshotBytesFile
  simp only [h, Bool.false_eq_true, if_false]

/-- A write that fails. -/
theorem write_of_writeFails (h : f.opens = true) {k : Nat} (hk : f.failsAfter = some k) :
    writeSnapshotBytesFile path c f fs = (.error .writeFailed,
      fs.written (tempPath path c.uniqueSuffix) (c.image.take k)) := by
  unfold writeSnapshotBytesFile
  simp only [h, if_true, hk]

theorem write_of_renames (h : f.opens = true) (hw : f.failsAfter = none) (hr : f.renames = true)
    (hfs : (fs.written (tempPath path c.uniqueSuffix) c.image).rename
      (tempPath path c.uniqueSuffix) path = some fs') :
    writeSnapshotBytesFile path c f fs = (.ok c.bytes.length, fs') := by
  unfold writeSnapshotBytesFile
  simp only [h, if_true, hw, hr, hfs]

/-- A rename that fails, after which the temporary file is removed. -/
theorem write_of_renameFails (h : f.opens = true) (hw : f.failsAfter = none)
    (hr : f.renames = false) :
    writeSnapshotBytesFile path c f fs = (.error .renameFailed,
      (fs.written (tempPath path c.uniqueSuffix) c.image).unlink
        (tempPath path c.uniqueSuffix)) := by
  unfold writeSnapshotBytesFile
  simp only [h, if_true, hw, hr, Bool.false_eq_true, if_false]

/-- The ways in which a call ends. -/
theorem write_cases (path : String) (c : WriteCall) (f : Faults) (fs : FileSystem String) :
    (f.opens = false ∧ writeSnapshotBytesFile path c f fs = (.error .openFailed, fs)) ∨
    (f.opens = true ∧ ∃ k, f.failsAfter = some k ∧
      writeSnapshotBytesFile path c f fs = (.error .writeFailed,
        fs.written (tempPath path c.uniqueSuffix) (c.image.take k))) ∨
    (f.opens = true ∧ f.failsAfter = none ∧ ∃ fs',
      (fs.written (tempPath path c.uniqueSuffix) c.image).rename
        (tempPath path c.uniqueSuffix) path = some fs' ∧
      writeSnapshotBytesFile path c f fs = (.ok c.bytes.length, fs')) ∨
    (f.opens = true ∧ f.failsAfter = none ∧
      writeSnapshotBytesFile path c f fs = (.error .renameFailed,
        (fs.written (tempPath path c.uniqueSuffix) c.image).unlink
          (tempPath path c.uniqueSuffix))) := by
  cases hopens : f.opens with
  | false => exact .inl ⟨rfl, write_of_openFails hopens⟩
  | true =>
      cases hwrite : f.failsAfter with
      | some k => exact .inr (.inl ⟨rfl, k, rfl, write_of_writeFails hopens hwrite⟩)
      | none =>
          cases hrename : f.renames with
          | true =>
              -- the temporary file is there, so there is something to rename
              obtain ⟨fs', hfs'⟩ := rename_isSome (b := path)
                (written_entry_self fs (tempPath path c.uniqueSuffix) c.image)
              exact .inr (.inr (.inl ⟨rfl, rfl, fs', hfs',
                write_of_renames hopens hwrite hrename hfs'⟩))
          | false =>
              exact .inr (.inr (.inr ⟨rfl, rfl, write_of_renameFails hopens hwrite hrename⟩))

end Outcomes

/-! ## It is what a run of the steps does -/

/-- One call alone with the file system, whose removals succeed. -/
def removingSystem (path : String) (c : WriteCall) :
    Lts (FileSystem String × WritePc) WriteLabel where
  init s := s.2 = .opening
  step s ℓ s' := WriteStep path c s.1 s.2 ℓ s'.1 s'.2 ∧
    (s.2 = .removing → s'.1 = s.1.unlink (tempPath path c.uniqueSuffix))

namespace WriteStep

variable {path : String} {c : WriteCall} {fs₀ fs fs' : FileSystem String} {pc pc' : WritePc}
  {ℓ : WriteLabel}

/-- The bytes `d` have reached the file, and the stream holds those that come next; `rest`
is what comes after them. -/
structure Streaming (path : String) (c : WriteCall) (fs₀ fs : FileSystem String) (s : OStream)
    (d rest : Bytes) : Prop where
  fs_eq : fs = fs₀.written (tempPath path c.uniqueSuffix) d
  inode : s.inode = (fs₀.openTrunc (tempPath path c.uniqueSuffix)).2
  offset : s.offset = d.length
  image : d ++ (s.buffer ++ rest) = c.image

/-- What a call that started in `fs₀` has made of the file system. -/
def Along (path : String) (c : WriteCall) (fs₀ fs : FileSystem String) : WritePc → Prop
  | .opening => fs = fs₀
  | .writing s todo => ∃ d rest, Streaming path c fs₀ fs s d rest ∧
      (s.good = true → rest = todo.flatten)
  | .closing s failed => ∃ d rest, Streaming path c fs₀ fs s d rest ∧
      (failed = false → s.buffer = [] ∧ rest = [])
  | .movingIntoPlace | .removing => fs = fs₀.written (tempPath path c.uniqueSuffix) c.image
  | .returned r => ∃ f, writeSnapshotBytesFile path c f fs₀ = (r, fs)

namespace Streaming

variable {s : OStream} {d rest : Bytes}

theorem drained (h : Streaming path c fs₀ fs s d rest) (k : Nat) :
    Streaming path c fs₀ (s.drain fs k) (s.drained k) (d ++ s.buffer.take k) rest := by
  refine ⟨?_, h.inode, ?_, ?_⟩
  · rw [OStream.drain, h.fs_eq, h.inode, h.offset, written_append]
  · rw [List.length_append, ← h.offset]
    rfl
  · rw [← h.image]
    conv_rhs => rw [← List.take_append_drop k s.buffer]
    simp only [OStream.drained, List.append_assoc]

theorem setBad (h : Streaming path c fs₀ fs s d rest) :
    Streaming path c fs₀ fs { s with good := false } d rest :=
  ⟨h.fs_eq, h.inode, h.offset, h.image⟩

/-- A buffer goes into a good stream. -/
theorem write {b : Bytes} {todo : List Bytes} (hg : s.good = true)
    (h : Streaming path c fs₀ fs s d (b :: todo).flatten) :
    Streaming path c fs₀ fs (s.write b) d todo.flatten := by
  rw [OStream.write, if_pos hg]
  refine ⟨h.fs_eq, h.inode, h.offset, ?_⟩
  rw [← h.image, List.flatten_cons, List.append_assoc]

end Streaming

/-- Each step does its part of what the function says. -/
theorem along (h : WriteStep path c fs pc ℓ fs' pc')
    (hr : pc = .removing → fs' = fs.unlink (tempPath path c.uniqueSuffix))
    (ha : Along path c fs₀ fs pc) : Along path c fs₀ fs' pc' := by
  cases h with
  | openFailed =>
      obtain rfl : fs = fs₀ := ha
      exact ⟨⟨false, none, true⟩, write_of_openFails rfl⟩
  | opened =>
      obtain rfl : fs = fs₀ := ha
      refine ⟨[], c.buffers.flatten, ⟨(written_nil fs _).symm, rfl, rfl, ?_⟩, fun _ ↦ rfl⟩
      rw [List.nil_append, List.nil_append, c.flatten_buffers]
  | write s b todo =>
      obtain ⟨d, rest, hs, hrest⟩ := ha
      cases hg : s.good with
      | true =>
          obtain rfl := hrest hg
          exact ⟨d, todo.flatten, hs.write hg, fun _ ↦ rfl⟩
      | false =>
          have hsame : s.write b = s := by
            rw [OStream.write, hg]
            rfl
          rw [hsame]
          exact ⟨d, rest, hs, fun h ↦ absurd (hg.symm.trans h) Bool.false_ne_true⟩
  | drained s todo k =>
      obtain ⟨d, rest, hs, hrest⟩ := ha
      exact ⟨_, rest, hs.drained k, hrest⟩
  | drainFailed s todo k =>
      obtain ⟨d, rest, hs, -⟩ := ha
      exact ⟨_, rest, (hs.drained k).setBad, fun h ↦ absurd h Bool.false_ne_true⟩
  | checked s flushed =>
      obtain ⟨d, rest, hs, hrest⟩ := ha
      refine ⟨d, rest, hs, fun hf ↦ ?_⟩
      have hg : s.good = true := by simpa using hf
      exact ⟨flushed hg, hrest hg⟩
  | closeDrained s failed k =>
      obtain ⟨d, rest, hs, hrest⟩ := ha
      refine ⟨_, rest, hs.drained k, fun hf ↦ ?_⟩
      obtain ⟨hbuffer, hnil⟩ := hrest hf
      exact ⟨by simp [OStream.drained, hbuffer], hnil⟩
  | closedFailed s =>
      obtain ⟨d, rest, hs, -⟩ := ha
      have htake : c.image.take d.length = d := by rw [← hs.image, List.take_left]
      refine ⟨⟨true, some d.length, true⟩, ?_⟩
      rw [write_of_writeFails rfl rfl, htake, ← hs.fs_eq]
  | closed s =>
      obtain ⟨d, rest, hs, hrest⟩ := ha
      obtain ⟨hbuffer, rfl⟩ := hrest rfl
      have hd : d = c.image := by rw [← hs.image, hbuffer, List.append_nil, List.append_nil]
      have hfs := hs.fs_eq
      rw [hd] at hfs
      exact hfs
  | renamed _ hr =>
      obtain rfl : fs = fs₀.written (tempPath path c.uniqueSuffix) c.image := ha
      exact ⟨⟨true, none, true⟩, write_of_renames rfl rfl rfl hr⟩
  | renameFailed => exact ha
  | removed =>
      obtain rfl : fs = fs₀.written (tempPath path c.uniqueSuffix) c.image := ha
      exact ⟨⟨true, none, false⟩, write_of_renameFails rfl rfl rfl⟩
  | removeFailed =>
      obtain rfl : fs = fs₀.written (tempPath path c.uniqueSuffix) c.image := ha
      refine ⟨⟨true, none, false⟩, ?_⟩
      rw [write_of_renameFails rfl rfl rfl, ← hr rfl]

end WriteStep

section Runs

variable {path : String} {c : WriteCall} {fs fs' : FileSystem String}

/-- A step in front of a run. -/
private theorem removing_cons {fs₁ fs₂ : FileSystem String} {pc₁ pc₂ : WritePc} {ℓ : WriteLabel}
    {w : List WriteLabel} {x : FileSystem String × WritePc}
    (hs : WriteStep path c fs₁ pc₁ ℓ fs₂ pc₂)
    (hr : pc₁ = .removing → fs₂ = fs₁.unlink (tempPath path c.uniqueSuffix))
    (h : (removingSystem path c).Run (fs₂, pc₂) w x) :
    (removingSystem path c).Run (fs₁, pc₁) (ℓ :: w) x :=
  have hs : (removingSystem path c).step (fs₁, pc₁) ℓ (fs₂, pc₂) := ⟨hs, hr⟩
  .cons hs h

/-- The call opens its file and moves the whole image into the stream. -/
theorem exists_run_streamed (path : String) (c : WriteCall) (fs : FileSystem String) :
    ∃ w fs₁ s, (removingSystem path c).Run (fs, .opening) w (fs₁, .writing s []) ∧
      s.good = true ∧ s.buffer = c.image ∧ WriteStep.Streaming path c fs fs₁ s [] [] := by
  let s₀ : OStream := ⟨(fs.openTrunc (tempPath path c.uniqueSuffix)).2, 0, [], true⟩
  have hbuffer : (((s₀.write (Codec.u32.enc snapshotFileMagic)).write
      (Codec.u32.enc c.version)).write c.bytes).buffer = c.image := by
    simp [OStream.write, WriteCall.image, s₀]
  refine ⟨_, _, _, removing_cons (.opened fs) (by rintro ⟨⟩) <|
    removing_cons (.write _ s₀ _ _) (by rintro ⟨⟩) <|
      removing_cons (.write _ _ _ _) (by rintro ⟨⟩) <|
        removing_cons (.write _ _ _ []) (by rintro ⟨⟩) (.nil _), rfl, hbuffer,
    ⟨(written_nil fs _).symm, rfl, rfl, ?_⟩⟩
  rw [hbuffer, List.append_nil, List.nil_append]

/-- The call writes the whole image into its temporary file. -/
theorem exists_run_movingIntoPlace (path : String) (c : WriteCall) (fs : FileSystem String) :
    ∃ w, (removingSystem path c).Run (fs, .opening) w
      (fs.written (tempPath path c.uniqueSuffix) c.image, .movingIntoPlace) := by
  obtain ⟨w, fs₁, s, hrun, hgood, hbuffer, hs⟩ := exists_run_streamed path c fs
  have hfs := (hs.drained c.image.length).fs_eq
  rw [List.nil_append, hbuffer, List.take_length] at hfs
  have hflushed : (s.drained c.image.length).buffer = [] := by
    rw [OStream.drained, hbuffer, List.drop_length]
  have hchecked := @WriteStep.checked path c (s.drain fs₁ c.image.length)
    (s.drained c.image.length) fun _ ↦ hflushed
  have hgood' : (!(s.drained c.image.length).good) = false := by
    rw [OStream.drained, hgood]
    rfl
  rw [hgood'] at hchecked
  rw [← hfs]
  exact ⟨_, hrun.append <| removing_cons (.drained fs₁ s [] c.image.length) (by rintro ⟨⟩) <|
    removing_cons hchecked (by rintro ⟨⟩) <|
      removing_cons (.closed _ _) (by rintro ⟨⟩) (.nil _)⟩

/-- What the function says of any faults is done by a run of the steps. -/
theorem exists_run_write (path : String) (c : WriteCall) (f : Faults) (fs : FileSystem String) :
    ∃ w, (removingSystem path c).Run (fs, .opening) w
      ((writeSnapshotBytesFile path c f fs).2,
        .returned (writeSnapshotBytesFile path c f fs).1) := by
  rcases write_cases path c f fs with ⟨-, h⟩ | ⟨-, k, -, h⟩ | ⟨-, -, fs', hfs', h⟩ | ⟨-, -, h⟩
  · rw [h]
    exact ⟨_, removing_cons (.openFailed fs) (by rintro ⟨⟩) (.nil _)⟩
  · obtain ⟨w, fs₁, s, hrun, -, hbuffer, hs⟩ := exists_run_streamed path c fs
    have hfs := (hs.drained k).fs_eq
    rw [List.nil_append, hbuffer] at hfs
    rw [h, ← hfs]
    refine ⟨_, hrun.append <| removing_cons (.drainFailed fs₁ s [] k) (by rintro ⟨⟩) <|
      removing_cons (.checked _ _ ?_) (by rintro ⟨⟩) <|
        removing_cons (.closedFailed _ _) (by rintro ⟨⟩) (.nil _)⟩
    intro h
    cases h
  · obtain ⟨w, hmove⟩ := exists_run_movingIntoPlace path c fs
    rw [h]
    exact ⟨_, hmove.append <| removing_cons (.renamed _ fs' hfs') (by rintro ⟨⟩) (.nil _)⟩
  · obtain ⟨w, hmove⟩ := exists_run_movingIntoPlace path c fs
    rw [h]
    exact ⟨_, hmove.append <| removing_cons (.renameFailed _) (by rintro ⟨⟩) <|
      removing_cons (.removed _) (fun _ ↦ rfl) (.nil _)⟩

/-- The outcomes of the function, for all faults, are those of the completed runs of the
steps. -/
theorem exists_run_iff (path : String) (c : WriteCall) (fs fs' : FileSystem String)
    (r : Except SnapshotFileError Nat) :
    (∃ w, (removingSystem path c).Run (fs, .opening) w (fs', .returned r)) ↔
      ∃ f, writeSnapshotBytesFile path c f fs = (r, fs') := by
  constructor
  · rintro ⟨w, hrun⟩
    have hstep : ∀ {s ℓ s'}, (removingSystem path c).step s ℓ s' →
        WriteStep.Along path c fs s.1 s.2 → WriteStep.Along path c fs s'.1 s'.2 :=
      fun hs ha ↦ WriteStep.along hs.1 hs.2 ha
    have hinit : WriteStep.Along path c fs fs .opening := rfl
    have h := hrun.invariant (I := fun s ↦ WriteStep.Along path c fs s.1 s.2) hstep hinit
    exact h
  · rintro ⟨f, hf⟩
    obtain ⟨w, hrun⟩ := exists_run_write path c f fs
    rw [hf] at hrun
    exact ⟨w, hrun⟩

end Runs

/-! ## What one call leaves behind -/

section Leaves

variable {path : String} {c : WriteCall} {f : Faults} {fs : FileSystem String}

/-- A call that fails leaves the state file as it was. -/
theorem content_of_error {e : SnapshotFileError}
    (herror : (writeSnapshotBytesFile path c f fs).1 = .error e) :
    (writeSnapshotBytesFile path c f fs).2.content path = fs.content path := by
  have hne := (tempPath_ne path c.uniqueSuffix).symm
  have hwritten (bs : Bytes) :
      (fs.written (tempPath path c.uniqueSuffix) bs).content path = fs.content path :=
    ((written_changesOnly fs _ bs).sameFile hne).content
  rcases write_cases path c f fs with ⟨-, h⟩ | ⟨-, k, -, h⟩ | ⟨-, -, fs', -, h⟩ | ⟨-, -, h⟩
  · rw [h]
  · rw [h]
    exact hwritten _
  · rw [h] at herror
    cases herror
  · rw [h]
    exact ((unlink_changesOnly _ _).sameFile hne).content.trans (hwritten _)

/-- A call touches its own temporary file and the state file. -/
theorem entry_of_ne {n : String} (hn : n ≠ tempPath path c.uniqueSuffix) (hp : n ≠ path) :
    (writeSnapshotBytesFile path c f fs).2.entry n = fs.entry n := by
  have hwritten (bs : Bytes) :
      (fs.written (tempPath path c.uniqueSuffix) bs).entry n = fs.entry n :=
    (written_changesOnly fs _ bs).entry hn
  rcases write_cases path c f fs with ⟨-, h⟩ | ⟨-, k, -, h⟩ | ⟨-, -, fs', hfs', h⟩ | ⟨-, -, h⟩
  · rw [h]
  · rw [h]
    exact hwritten _
  · rw [h]
    exact (rename_sameFile hfs' hn hp).entry.trans (hwritten _)
  · rw [h]
    exact (unlink_entry_of_ne hn).trans (hwritten _)

/-- A call that has opened its temporary file leaves it behind exactly when a write
failed. -/
theorem entry_temp_eq_none_iff (hopens : f.opens = true) :
    (writeSnapshotBytesFile path c f fs).2.entry (tempPath path c.uniqueSuffix) = none ↔
      f.failsAfter = none := by
  rcases write_cases path c f fs with
    ⟨hcloses, -⟩ | ⟨-, k, hwrite, h⟩ | ⟨-, hwrite, fs', hfs', h⟩ | ⟨-, hwrite, h⟩
  · exact absurd (hopens.symm.trans hcloses) Bool.true_eq_false.mp
  · rw [h, hwrite, written_entry_self]
    simp
  · refine iff_of_true ?_ hwrite
    obtain ⟨i, -, hentry, -⟩ := rename_eq_some hfs'
    rw [h, hentry, Function.update_of_ne (tempPath_ne path c.uniqueSuffix), Function.update_self]
  · refine iff_of_true ?_ hwrite
    rw [h]
    exact unlink_entry_self ..

end Leaves

/-! ## Sequences of calls -/

/-- The file system after some calls, each with its faults. -/
def writeAll (path : String) (calls : List (WriteCall × Faults)) (fs : FileSystem String) :
    FileSystem String :=
  calls.foldl (fun fs x ↦ (writeSnapshotBytesFile path x.1 x.2 fs).2) fs

/-- No call so far has left its temporary file. -/
def Swept (path : String) (calls : List (WriteCall × Faults)) (fs : FileSystem String) : Prop :=
  ∀ x ∈ calls, x.2.opens = true → fs.entry (tempPath path x.1.uniqueSuffix) = none

/-- After each of the calls: if it has failed the state file is what it was, and there is no
temporary file that it or a call before it has created. -/
def LeavesNoTrace (path : String) (calls : List (WriteCall × Faults)) (fs : FileSystem String) :
    Prop :=
  ∀ before x after, calls = before ++ x :: after →
    (∀ e, (writeSnapshotBytesFile path x.1 x.2 (writeAll path before fs)).1 = .error e →
      (writeAll path (before ++ [x]) fs).content path = (writeAll path before fs).content path) ∧
    Swept path (before ++ [x]) (writeAll path (before ++ [x]) fs)

section Sequences

variable {path : String} {fs : FileSystem String}

theorem writeAll_snoc (calls : List (WriteCall × Faults)) (x : WriteCall × Faults) :
    writeAll path (calls ++ [x]) fs =
      (writeSnapshotBytesFile path x.1 x.2 (writeAll path calls fs)).2 := by
  rw [writeAll, List.foldl_append]
  rfl

/-- After any sequence of calls with distinct suffixes, the temporary files that are there
are those of the calls in which a write has failed, one for each. -/
theorem entry_writeAll_eq_none_iff {calls : List (WriteCall × Faults)}
    (hdistinct : (calls.map fun x ↦ x.1.uniqueSuffix).Nodup) {x : WriteCall × Faults}
    (hx : x ∈ calls) (hopens : x.2.opens = true) :
    (writeAll path calls fs).entry (tempPath path x.1.uniqueSuffix) = none ↔
      x.2.failsAfter = none := by
  induction calls using List.reverseRecOn with
  | nil => cases hx
  | append_singleton calls y ih =>
      rw [List.map_append, List.nodup_append'] at hdistinct
      obtain ⟨hnodup, -, hdisjoint⟩ := hdistinct
      rw [writeAll_snoc]
      rcases List.mem_append.mp hx with hx | hx
      · have hne : tempPath path x.1.uniqueSuffix ≠ tempPath path y.1.uniqueSuffix := fun he ↦
          hdisjoint (List.mem_map_of_mem hx)
            (List.mem_singleton.mpr (tempPath_injective path he))
        rw [entry_of_ne hne (tempPath_ne path _)]
        exact ih hnodup hx
      · obtain rfl := List.mem_singleton.mp hx
        exact entry_temp_eq_none_iff hopens

/-- A sequence of calls with distinct suffixes leaves no trace of those that failed if and
only if no write fails in a call that has opened its temporary file. -/
theorem leavesNoTrace_iff (path : String) (calls : List (WriteCall × Faults))
    (fs : FileSystem String) (hdistinct : (calls.map fun x ↦ x.1.uniqueSuffix).Nodup) :
    LeavesNoTrace path calls fs ↔ ∀ x ∈ calls, x.2.opens = true → x.2.failsAfter = none := by
  constructor
  · intro h x hx hopens
    obtain ⟨before, after, hcalls⟩ := List.append_of_mem hx
    have hentry := (h before x after hcalls).2 x (List.mem_append_right _ List.mem_cons_self) hopens
    rw [writeAll_snoc] at hentry
    exact (entry_temp_eq_none_iff hopens).mp hentry
  · rintro h before x after rfl
    constructor
    · intro e he
      rw [writeAll_snoc]
      exact content_of_error he
    · rw [List.append_cons, List.map_append] at hdistinct
      intro y hy hopens
      refine (entry_writeAll_eq_none_iff (List.nodup_append'.mp hdistinct).1 hy hopens).mpr ?_
      refine h y ?_ hopens
      rw [List.append_cons]
      exact List.mem_append_left _ hy

/-- A rename that fails and a write that succeeds. -/
theorem leavesNoTrace_renameFails :
    LeavesNoTrace "state.bin" [(⟨[1], 60, 2⟩, ⟨true, none, false⟩),
      (⟨[1, 2], 120, 2⟩, ⟨true, none, true⟩)] .empty :=
  (leavesNoTrace_iff "state.bin" _ .empty (by decide)).mpr (by
    intro x hx _
    rcases List.mem_pair.mp hx with rfl | rfl
    · rfl
    · rfl)

/-- Two snapshots on a full disk leave two files. -/
theorem not_leavesNoTrace_full :
    ¬ LeavesNoTrace "state.bin" [(⟨[1], 60, 2⟩, ⟨true, some 0, true⟩),
      (⟨[1, 2], 120, 2⟩, ⟨true, some 5, true⟩)] .empty ∧
    ∀ u ∈ [60, 120], (writeAll "state.bin" [(⟨[1], 60, 2⟩, ⟨true, some 0, true⟩),
      (⟨[1, 2], 120, 2⟩, ⟨true, some 5, true⟩)] .empty).entry (tempPath "state.bin" u) ≠ none := by
  have hdistinct : ([((⟨[1], 60, 2⟩, ⟨true, some 0, true⟩) : WriteCall × Faults),
      (⟨[1, 2], 120, 2⟩, ⟨true, some 5, true⟩)].map fun x ↦ x.1.uniqueSuffix).Nodup := by decide
  constructor
  · intro h
    have hentry := (h [] _ _ rfl).2 _ List.mem_cons_self rfl
    rw [writeAll_snoc] at hentry
    cases (entry_temp_eq_none_iff rfl).mp hentry
  · intro u hu hnone
    rcases List.mem_pair.mp hu with rfl | rfl
    · cases (entry_writeAll_eq_none_iff hdistinct List.mem_cons_self rfl).mp hnone
    · cases (entry_writeAll_eq_none_iff hdistinct
        (List.mem_cons_of_mem _ List.mem_cons_self) rfl).mp hnone

end Sequences

end Konative.Ecs
