import Konative.Ecs.SnapshotFile
import Konative.Lib.Lts

/-!
# Writing a snapshot file

`write_snapshot_bytes_file` as a step relation over the file system.  One step is
one system call, or one change of the stream's own memory, so that anything may
happen to the file system between two of them:

* open the temporary file, truncating what an earlier process left there;
* move the next of the three buffers into the stream (`stream.write`);
* drain some of the stream's buffer into the file, or fail to;
* `flush`, the `good()` test, and the stream's destructor, which closes the file;
* rename the temporary file over the state file, or fail to and remove it.

Every step may fail, and any number of bytes may reach the file before a failure.
Only the rename is labelled: it is the one step that touches the state file.

The invariant is `Tracks`: while the stream is good, the file, the buffer and what
is still to be written add up to the complete image; so when the rename happens
the temporary file holds exactly that image.
-/

namespace Konative.Ecs

open FileSystem

/-- An open `std::ofstream`. -/
structure OStream where
  /-- The open file. -/
  inode : Nat
  /-- Where the next drained byte goes. -/
  offset : Nat
  /-- What was written to the stream and has not reached the file. -/
  buffer : Bytes
  /-- `good()`: no write has failed. -/
  good : Bool

namespace OStream

/-- `stream.write`: a stream that has failed swallows the bytes. -/
def write (s : OStream) (b : Bytes) : OStream :=
  if s.good then { s with buffer := s.buffer ++ b } else s

/-- The stream after `k` bytes of its buffer have reached the file. -/
def drained (s : OStream) (k : Nat) : OStream :=
  { s with offset := s.offset + (s.buffer.take k).length, buffer := s.buffer.drop k }

/-- The file system after `k` bytes of the buffer have reached the file. -/
def drain (s : OStream) (fs : FileSystem String) (k : Nat) : FileSystem String :=
  fs.pwrite s.inode s.offset (s.buffer.take k)

end OStream

/-- Where a `write_snapshot_bytes_file` call is. -/
inductive WritePc
  /-- About to construct the stream. -/
  | opening
  /-- Streaming: these buffers are still to be written.  None left is the flush. -/
  | writing (s : OStream) (todo : List Bytes)
  /-- The `good()` test is done; the stream's destructor is running. -/
  | closing (s : OStream) (failed : Bool)
  /-- About to rename the temporary file into place. -/
  | movingIntoPlace
  /-- The rename failed; about to remove the temporary file. -/
  | removing
  | returned (r : Except SnapshotFileError Nat)

/-- The one step other parties can tell from the rest. -/
inductive WriteLabel
  | internal
  | renamed
deriving DecidableEq

/-- One step of a `write_snapshot_bytes_file` call. -/
inductive WriteStep (path : String) (c : WriteCall) :
    FileSystem String → WritePc → WriteLabel → FileSystem String → WritePc → Prop
  | openFailed (fs : FileSystem String) :
      WriteStep path c fs .opening .internal fs (.returned (.error .openFailed))
  | opened (fs : FileSystem String) :
      WriteStep path c fs .opening .internal (fs.openTrunc (tempPath path c.uniqueSuffix)).1
        (.writing ⟨(fs.openTrunc (tempPath path c.uniqueSuffix)).2, 0, [], true⟩ c.buffers)
  | write (fs : FileSystem String) (s : OStream) (b : Bytes) (todo : List Bytes) :
      WriteStep path c fs (.writing s (b :: todo)) .internal fs (.writing (s.write b) todo)
  | drained (fs : FileSystem String) (s : OStream) (todo : List Bytes) (k : Nat) :
      WriteStep path c fs (.writing s todo) .internal (s.drain fs k) (.writing (s.drained k) todo)
  | drainFailed (fs : FileSystem String) (s : OStream) (todo : List Bytes) (k : Nat) :
      WriteStep path c fs (.writing s todo) .internal (s.drain fs k)
        (.writing { s.drained k with good := false } todo)
  | checked (fs : FileSystem String) (s : OStream) (flushed : s.good = true → s.buffer = []) :
      WriteStep path c fs (.writing s []) .internal fs (.closing s (!s.good))
  | closeDrained (fs : FileSystem String) (s : OStream) (failed : Bool) (k : Nat) :
      WriteStep path c fs (.closing s failed) .internal (s.drain fs k)
        (.closing (s.drained k) failed)
  | closedFailed (fs : FileSystem String) (s : OStream) :
      WriteStep path c fs (.closing s true) .internal fs (.returned (.error .writeFailed))
  | closed (fs : FileSystem String) (s : OStream) :
      WriteStep path c fs (.closing s false) .internal fs .movingIntoPlace
  | renamed (fs fs' : FileSystem String)
      (hr : fs.rename (tempPath path c.uniqueSuffix) path = some fs') :
      WriteStep path c fs .movingIntoPlace .renamed fs' (.returned (.ok c.bytes.length))
  | renameFailed (fs : FileSystem String) :
      WriteStep path c fs .movingIntoPlace .internal fs .removing
  | removed (fs : FileSystem String) :
      WriteStep path c fs .removing .internal (fs.unlink (tempPath path c.uniqueSuffix))
        (.returned (.error .renameFailed))
  | removeFailed (fs : FileSystem String) :
      WriteStep path c fs .removing .internal fs (.returned (.error .renameFailed))

/-- The call has returned. -/
def WritePc.Finished : WritePc → Prop
  | .returned _ => True
  | _ => False

instance (pc : WritePc) : Decidable pc.Finished :=
  match pc with
  | .returned _ => .isTrue trivial
  | .opening | .writing .. | .closing .. | .movingIntoPlace | .removing => .isFalse id

/-! ## What a call knows about its temporary file -/

/-- The file, the stream's buffer and `todo` add up to the image, and the stream
writes at the end of the file. -/
structure OStream.Complete (s : OStream) (fs : FileSystem String) (todo : List Bytes)
    (image : Bytes) : Prop where
  offset : s.offset = (fs.data s.inode).length
  image : fs.data s.inode ++ (s.buffer ++ todo.flatten) = image

/-- What is known of the temporary file at each point of a call. -/
def Tracks (path : String) (c : WriteCall) (fs : FileSystem String) : WritePc → Prop
  | .writing s todo =>
      fs.entry (tempPath path c.uniqueSuffix) = some s.inode ∧
        (s.good = true → s.Complete fs todo c.image)
  | .closing s failed =>
      fs.entry (tempPath path c.uniqueSuffix) = some s.inode ∧
        (failed = false → s.buffer = [] ∧ s.Complete fs [] c.image)
  | .movingIntoPlace => fs.content (tempPath path c.uniqueSuffix) = some c.image
  | .opening | .removing | .returned _ => True

namespace OStream

variable {s : OStream} {fs fs' : FileSystem String} {todo : List Bytes} {image : Bytes}

/-- What a stream knows depends on its own file only. -/
theorem Complete.congr (h : s.Complete fs todo image) (hd : fs'.data s.inode = fs.data s.inode) :
    s.Complete fs' todo image :=
  ⟨by rw [hd]; exact h.offset, by rw [hd]; exact h.image⟩

/-- A stream just opened holds nothing: all three buffers are to be written. -/
theorem complete_opened (fs : FileSystem String) (n : String) (c : WriteCall) :
    (OStream.mk (fs.openTrunc n).2 0 [] true).Complete (fs.openTrunc n).1 c.buffers c.image := by
  have h := openTrunc_data_self fs n
  constructor
  · change 0 = ((fs.openTrunc n).1.data (fs.openTrunc n).2).length
    rw [h, List.length_nil]
  · change (fs.openTrunc n).1.data (fs.openTrunc n).2 ++ ([] ++ c.buffers.flatten) = c.image
    rw [h, List.nil_append, List.nil_append, c.flatten_buffers]

/-- Moving a buffer into the stream keeps the sum. -/
theorem Complete.write {b : Bytes} (hg : s.good = true) (h : s.Complete fs (b :: todo) image) :
    (s.write b).Complete fs todo image := by
  rw [OStream.write, if_pos hg]
  refine ⟨h.offset, ?_⟩
  rw [← h.image, List.flatten_cons, List.append_assoc]

theorem write_inode (s : OStream) (b : Bytes) : (s.write b).inode = s.inode := by
  unfold OStream.write
  split <;> rfl

theorem good_of_write {s : OStream} {b : Bytes} (h : (s.write b).good = true) :
    s.good = true := by
  unfold OStream.write at h
  split at h
  · exact h
  · exact h

/-- The file after a drain, for a stream that writes at its end. -/
theorem drain_data (k : Nat) (ho : s.offset = (fs.data s.inode).length) :
    (s.drain fs k).data s.inode = fs.data s.inode ++ s.buffer.take k := by
  rw [drain, pwrite_data_self, ho, overwrite_length]

/-- Draining moves bytes from the buffer to the file and keeps the sum. -/
theorem Complete.drained (k : Nat) (h : s.Complete fs todo image) :
    (s.drained k).Complete (s.drain fs k) todo image := by
  have hd := drain_data k h.offset
  constructor
  · change s.offset + (s.buffer.take k).length = ((s.drain fs k).data s.inode).length
    rw [hd, List.length_append, h.offset]
  · change (s.drain fs k).data s.inode ++ (s.buffer.drop k ++ todo.flatten) = image
    rw [hd, ← h.image]
    conv_rhs => rw [← List.take_append_drop k s.buffer]
    simp only [List.append_assoc]

/-- Draining writes to the temporary file only. -/
theorem drain_changesOnly {n : String} (h : fs.entry n = some s.inode) (k : Nat) :
    ChangesOnly fs (s.drain fs k) n := pwrite_changesOnly h ..

end OStream

namespace Tracks

variable {path : String} {c : WriteCall} {fs fs' : FileSystem String} {pc : WritePc}

/-- What a call knows survives anything that leaves its temporary file alone. -/
theorem frame (h : Tracks path c fs pc) (hs : SameFile fs fs' (tempPath path c.uniqueSuffix)) :
    Tracks path c fs' pc := by
  cases pc with
  | writing s todo =>
      obtain ⟨he, hc⟩ := h
      exact ⟨hs.entry.trans he, fun hg ↦ (hc hg).congr (hs.data he)⟩
  | closing s failed =>
      obtain ⟨he, hc⟩ := h
      exact ⟨hs.entry.trans he, fun hf ↦ ⟨(hc hf).1, (hc hf).2.congr (hs.data he)⟩⟩
  | movingIntoPlace => exact hs.content.trans h
  | opening | removing | returned _ => trivial

end Tracks

/-! ## What one step does -/

namespace WriteStep

variable {path : String} {c : WriteCall} {fs fs' : FileSystem String} {pc pc' : WritePc}
  {ℓ : WriteLabel}

/-- Each step keeps what the call knows. -/
theorem tracks (h : WriteStep path c fs pc ℓ fs' pc') (ht : Tracks path c fs pc) :
    Tracks path c fs' pc' := by
  cases h with
  | openFailed | closedFailed | renamed _ _ | renameFailed | removed | removeFailed => trivial
  | opened => exact ⟨openTrunc_entry_self .., fun _ ↦ OStream.complete_opened ..⟩
  | write s b todo =>
      obtain ⟨he, hc⟩ := ht
      refine ⟨by rw [OStream.write_inode]; exact he, fun hg ↦ ?_⟩
      have hg' := OStream.good_of_write hg
      exact (hc hg').write hg'
  | drained s todo k =>
      obtain ⟨he, hc⟩ := ht
      exact ⟨he, fun hg ↦ (hc hg).drained k⟩
  | drainFailed s todo k =>
      obtain ⟨he, -⟩ := ht
      exact ⟨he, nofun⟩
  | checked s flushed =>
      obtain ⟨he, hc⟩ := ht
      refine ⟨he, fun hf ↦ ?_⟩
      have hg : s.good = true := by simpa using hf
      exact ⟨flushed hg, hc hg⟩
  | closeDrained s failed k =>
      obtain ⟨he, hc⟩ := ht
      refine ⟨he, fun hf ↦ ?_⟩
      obtain ⟨hb, hi⟩ := hc hf
      exact ⟨by simp [OStream.drained, hb], hi.drained k⟩
  | closed s =>
      obtain ⟨he, hc⟩ := ht
      obtain ⟨hb, hi⟩ := hc rfl
      have himage := hi.image
      rw [hb] at himage
      change fs.content (tempPath path c.uniqueSuffix) = some c.image
      rw [content_eq_some he, ← himage]
      simp

/-- An internal step touches the call's own temporary file only. -/
theorem changesOnly (h : WriteStep path c fs pc .internal fs' pc') (ht : Tracks path c fs pc) :
    ChangesOnly fs fs' (tempPath path c.uniqueSuffix) := by
  cases h with
  | openFailed | write _ _ _ | checked _ _ | closedFailed _ | closed _ | renameFailed
  | removeFailed => exact .refl ..
  | opened => exact openTrunc_changesOnly ..
  | drained s todo k | drainFailed s todo k | closeDrained s failed k =>
      exact s.drain_changesOnly ht.1 k
  | removed => exact unlink_changesOnly ..

/-- The labelled step renames a complete image over the state file and returns. -/
theorem renamed_spec (h : WriteStep path c fs pc .renamed fs' pc') (ht : Tracks path c fs pc) :
    fs.rename (tempPath path c.uniqueSuffix) path = some fs' ∧
      fs'.content path = some c.image ∧ pc' = .returned (.ok c.bytes.length) := by
  cases h with
  | renamed _ hr => exact ⟨hr, (rename_content_self hr).trans ht, rfl⟩

/-- A call returns `ok` in its rename and nowhere else. -/
theorem eq_renamed_of_ok {n : Nat} (h : WriteStep path c fs pc ℓ fs' (.returned (.ok n))) :
    ℓ = .renamed ∧ n = c.bytes.length := by
  cases h with
  | renamed _ _ => exact ⟨rfl, rfl⟩

/-- A call that has returned takes no further step. -/
theorem not_finished (h : WriteStep path c fs pc ℓ fs' pc') : ¬ pc.Finished := by
  cases h <;> exact id

/-- A step changes the content of the state file only when it is the rename, and
then to the call's image. -/
theorem content_path (h : WriteStep path c fs pc ℓ fs' pc') (ht : Tracks path c fs pc) :
    fs'.content path = if ℓ = .renamed then some c.image else fs.content path := by
  cases ℓ with
  | internal => exact ((h.changesOnly ht).sameFile (tempPath_ne path c.uniqueSuffix).symm).content
  | renamed => exact (h.renamed_spec ht).2.1

/-- A step leaves every file but the call's own two the same. -/
theorem sameFile (h : WriteStep path c fs pc ℓ fs' pc') (ht : Tracks path c fs pc) {n : String}
    (hn : n ≠ tempPath path c.uniqueSuffix) (hp : n ≠ path) : SameFile fs fs' n := by
  cases ℓ with
  | internal => exact (h.changesOnly ht).sameFile hn
  | renamed => exact rename_sameFile (h.renamed_spec ht).1 hn hp

end WriteStep

/-! ## A call that nothing disturbs -/

/-- One call alone with the file system. -/
def writeSystem (path : String) (c : WriteCall) :
    Lts (FileSystem String × WritePc) WriteLabel where
  init s := s.2 = .opening
  step s ℓ s' := WriteStep path c s.1 s.2 ℓ s'.1 s'.2

section Alone

variable {path : String} {c : WriteCall} {fs fs' : FileSystem String} {pc pc' : WritePc}
  {w : List WriteLabel}

/-- What a run of a call keeps: it knows its temporary file, and once it has
returned `ok` the state file is its image. -/
private theorem run_keeps (h : (writeSystem path c).Run (fs, pc) w (fs', pc'))
    (ht : Tracks path c fs pc)
    (hok : ∀ {n}, pc = .returned (.ok n) → n = c.bytes.length ∧ fs.content path = some c.image) :
    Tracks path c fs' pc' ∧
      ∀ {n}, pc' = .returned (.ok n) → n = c.bytes.length ∧ fs'.content path = some c.image := by
  refine h.invariant (I := fun s ↦ Tracks path c s.1 s.2 ∧ ∀ {n}, s.2 = .returned (.ok n) →
    n = c.bytes.length ∧ s.1.content path = some c.image) ?_ ⟨ht, hok⟩
  rintro s ℓ s' hs ⟨ht, -⟩
  refine ⟨WriteStep.tracks hs ht, fun {n} hn ↦ ?_⟩
  have hs' : WriteStep path c s.1 s.2 ℓ s'.1 (.returned (.ok n)) := hn ▸ hs
  obtain ⟨rfl, hlen⟩ := hs'.eq_renamed_of_ok
  exact ⟨hlen, (WriteStep.renamed_spec hs ht).2.1⟩

/-- A call that returns `ok` returns the payload's size and leaves the state file
with the complete image. -/
theorem content_of_run_ok {n : Nat}
    (h : (writeSystem path c).Run (fs, .opening) w (fs', .returned (.ok n))) :
    n = c.bytes.length ∧ fs'.content path = some c.image :=
  (run_keeps h trivial nofun).2 rfl

/-- A step in front of a run of the call. -/
private theorem run_cons {ℓ : WriteLabel} {x : FileSystem String × WritePc}
    (hs : WriteStep path c fs pc ℓ fs' pc') (h : (writeSystem path c).Run (fs', pc') w x) :
    (writeSystem path c).Run (fs, pc) (ℓ :: w) x :=
  have hs : (writeSystem path c).step (fs, pc) ℓ (fs', pc') := hs
  .cons hs h

/-- From any file system the call can succeed. -/
theorem exists_run_ok (path : String) (c : WriteCall) (fs : FileSystem String) :
    ∃ fs' w, (writeSystem path c).Run (fs, .opening) w
      (fs', .returned (.ok c.bytes.length)) := by
  let s₀ : OStream := ⟨(fs.openTrunc (tempPath path c.uniqueSuffix)).2, 0, [], true⟩
  let s₁ : OStream := ((s₀.write (Codec.u32.enc snapshotFileMagic)).write
    (Codec.u32.enc c.version)).write c.bytes
  let s₂ : OStream := s₁.drained s₁.buffer.length
  have hflushed : s₂.good = true → s₂.buffer = [] := fun _ ↦ List.drop_length
  -- open, write the three buffers, drain them, flush, close
  have hrun : ∃ w, (writeSystem path c).Run (fs, .opening) w
      (s₁.drain (fs.openTrunc (tempPath path c.uniqueSuffix)).1 s₁.buffer.length,
        .movingIntoPlace) :=
    ⟨_, run_cons (.opened fs) <| run_cons (.write _ s₀ _ _) <| run_cons (.write _ _ _ _) <|
      run_cons (.write _ _ _ []) <| run_cons (.drained _ s₁ [] s₁.buffer.length) <|
        run_cons (.checked _ s₂ hflushed) <| run_cons (.closed _ s₂) (.nil _)⟩
  obtain ⟨w, hrun⟩ := hrun
  have ht : Tracks path c _ .movingIntoPlace := (run_keeps hrun trivial nofun).1
  obtain ⟨i, hi, -⟩ := Option.map_eq_some_iff.mp ht
  obtain ⟨fs', hr⟩ := rename_isSome (b := path) hi
  exact ⟨fs', _, hrun.snoc (.renamed _ fs' hr)⟩

end Alone

end Konative.Ecs
