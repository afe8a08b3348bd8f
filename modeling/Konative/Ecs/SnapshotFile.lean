import Konative.Lib.Codec
import Std.Data.String.ToNat

/-!
# The snapshot file: its format and its names

`ecs/snapshot_file.hpp` stores a snapshot as eight bytes of header, a magic and a
layout version, followed by a cereal archive.  It is written to a sibling of the
state file whose name ends in `.tmp` and a decimal suffix, and renamed into place.

This file has what both directions share: the error enumeration, the header, and
the name of the temporary file with the two facts the protocol rests on: the
temporary file is never the state file, and two suffixes never share one.  It also
has the sweep of the temporary files that a killed process left behind.
-/

namespace Konative.Ecs

/-- Which step of reading or writing a snapshot file failed. -/
inductive SnapshotFileError
  /-- read: file missing or unreadable; write: the temp file couldn't be created -/
  | openFailed
  /-- read: too short for a header, or the magic isn't a Konative snapshot's -/
  | badHeader
  /-- read: a layout version this build doesn't read -/
  | versionMismatch
  /-- read: header fine, but the payload could not be loaded -/
  | archiveError
  /-- write: streaming the bytes out failed -/
  | writeFailed
  /-- write: moving the temp file into place failed -/
  | renameFailed
deriving DecidableEq, Repr

/-- `kSnapshotFileMagic`: "KSNP" as little-endian bytes. -/
def snapshotFileMagic : UInt32 := 0x504E534B

/-- The arguments of one `write_snapshot_bytes_file` call, its path apart. -/
structure WriteCall where
  /-- The serialized archive. -/
  bytes : Bytes
  /-- Disambiguates the temp file name across overlapping writers. -/
  uniqueSuffix : Nat
  version : UInt32
deriving DecidableEq

namespace WriteCall

/-- The three buffers the call streams out, in order. -/
def buffers (c : WriteCall) : List Bytes :=
  [Codec.u32.enc snapshotFileMagic, Codec.u32.enc c.version, c.bytes]

/-- The complete file: magic, version, payload. -/
def image (c : WriteCall) : Bytes :=
  Codec.u32.enc snapshotFileMagic ++ (Codec.u32.enc c.version ++ c.bytes)

/-- What is streamed out is the complete file. -/
theorem flatten_buffers (c : WriteCall) : c.buffers.flatten = c.image := by
  simp [image, buffers]

end WriteCall

/-! ## The temporary file's name -/

/-- `path + ".tmp" + std::to_string(unique_suffix)`. -/
def tempPath (path : String) (uniqueSuffix : Nat) : String :=
  path ++ ".tmp" ++ Nat.repr uniqueSuffix

/-- The temporary file is not the state file. -/
theorem tempPath_ne (path : String) (u : Nat) : tempPath path u ≠ path := by
  intro h
  have hl := congrArg String.length h
  have ht : ".tmp".length = 4 := rfl
  simp only [tempPath, String.length_append, ht] at hl
  omega

/-- Different suffixes give different temporary files. -/
theorem tempPath_injective (path : String) : Function.Injective (tempPath path) := fun _ _ h ↦
  Nat.repr_injective (String.append_right_inj _ |>.mp h)

/-! ## Orphaned temporary files -/

/-- The test on an entry's name: it begins with `path + ".tmp"`. -/
def isTempOf (path entry : String) : Bool := (path ++ ".tmp").toList.isPrefixOf entry.toList

/-- The state file is not among its temporary files. -/
theorem isTempOf_self (path : String) : isTempOf path path = false := by
  rw [isTempOf, Bool.eq_false_iff]
  intro h
  have hle := (List.isPrefixOf_iff_prefix.mp h).length_le
  have ht : ".tmp".toList.length = 4 := rfl
  rw [String.toList_append, List.length_append, ht] at hle
  omega

/-- `cleanup_orphaned_snapshot_temp_files(path)`, where it returns.  `listing` is what the
directory iterator gave, nothing where the directory did not open, and whether each removal
can succeed. -/
def cleanupOrphanedSnapshotTempFiles (path : String) (listing : List (String × Bool))
    (fs : FileSystem String) : FileSystem String :=
  listing.foldl (fun fs x ↦ if isTempOf path x.1 && x.2 then fs.unlink x.1 else fs) fs

/-- The sweep does not touch the state file. -/
theorem content_cleanup (path : String) (listing : List (String × Bool))
    (fs : FileSystem String) :
    (cleanupOrphanedSnapshotTempFiles path listing fs).content path = fs.content path := by
  induction listing generalizing fs with
  | nil => rfl
  | cons x listing ih =>
      apply (ih _).trans
      show FileSystem.content (if _ then _ else _) path = _
      split
      · rename_i hx
        have hne : path ≠ x.1 := by
          rintro rfl
          rw [isTempOf_self] at hx
          cases hx
        exact ((FileSystem.unlink_changesOnly fs x.1).sameFile hne).content
      · rfl

/-- What the sweep has removed: the temporary files in the listing that can be removed. -/
theorem entry_cleanup_eq_none_iff {path : String} {listing : List (String × Bool)}
    {fs : FileSystem String} {n : String} :
    (cleanupOrphanedSnapshotTempFiles path listing fs).entry n = none ↔
      fs.entry n = none ∨ (n, true) ∈ listing ∧ isTempOf path n = true := by
  induction listing generalizing fs with
  | nil => simp only [cleanupOrphanedSnapshotTempFiles, List.foldl_nil, List.not_mem_nil,
      false_and, or_false]
  | cons x listing ih =>
      obtain ⟨m, r⟩ := x
      apply Iff.trans ih
      rw [List.mem_cons, or_and_right, ← or_assoc]
      apply or_congr_left
      rw [Prod.mk.injEq]
      change FileSystem.entry (if _ then _ else _) n = none ↔ _
      split
      · rename_i hx
        rw [Bool.and_eq_true] at hx
        by_cases hn : n = m
        · subst hn
          exact iff_of_true (FileSystem.unlink_entry_self fs n) (.inr ⟨⟨rfl, hx.2.symm⟩, hx.1⟩)
        · rw [FileSystem.unlink_entry_of_ne hn]
          simp only [hn, false_and, or_false]
      · rename_i hx
        rw [Bool.and_eq_true] at hx
        constructor
        · exact .inl
        · rintro (h | ⟨⟨rfl, rfl⟩, h⟩)
          · exact h
          · exact absurd ⟨h, rfl⟩ hx

end Konative.Ecs
