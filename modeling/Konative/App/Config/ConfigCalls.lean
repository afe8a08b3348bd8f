import Konative.App.Config.JsonConfigFile
import Konative.Reflect.MetaToJson
import Konative.Lib.Program

/-!
# The calls of the config file

`load_or_provision` and `poll_reload` as the file-system calls they make, in order, on
the one path a `JsonConfigFile` has.  What the calls answer is left to a handler, so
the same two programs run against a file that nobody changes, a file that is edited
between the calls, a file system that fails and one that answers anything.
-/

namespace Konative.App.Config

open Reflect

variable {M : Type}

/-! ## Calls -/

/-- A call on the file's path. -/
inductive FileCall
  /-- `std::filesystem::exists(path_, ec)`. -/
  | fileExists
  /-- `std::ofstream(path_, binary | trunc)`. -/
  | openWrite
  /-- `stream.write` of the whole text, and `flush`. -/
  | write (json : String)
  /-- `std::filesystem::last_write_time(path_, ec)`. -/
  | lastWriteTime
  /-- `std::ifstream(path_, binary)`. -/
  | openRead
  /-- `contents << stream.rdbuf()`. -/
  | read

/-- What a call answers; `none` is an error, and `false` a stream that is not good. -/
abbrev FileCall.Answer (M : Type) : FileCall → Type
  | .fileExists => Option Bool
  | .openWrite | .write _ | .openRead => Bool
  | .lastWriteTime => Option M
  | .read => Option String

/-- A program that makes such calls. -/
abbrev FileProg (M α : Type) := Prog (FileCall.Answer M) α

/-- Make a call. -/
def call (c : FileCall) : FileProg M (c.Answer M) := .call c .ret

/-- A call, whatever is done with its answer. -/
theorem wp_call {α R S : Type} {H : Handler (FileCall.Answer M) R S} {Q : α → S → Prop} {s : S}
    (c : FileCall) (k : c.Answer M → FileProg M α) :
    (call c >>= k).wp H Q s ↔ ∀ x, (k (H s c x).1).wp H Q (H s c x).2 := .rfl

/-! ## The config file -/

/-- `last_seen_mtime_`, and the instance of the caller. -/
structure ConfigState (M : Type) where
  lastSeenMtime : M
  inst : Instance

/-- `write_file(json)`. -/
def writeFile (json : String) : FileProg M Bool := do
  let opened : Bool ← call .openWrite
  if opened then call (.write json) else pure false

/-- The part of `parse_file_into` that reads the file; `none` is a `false`. -/
def readContents : FileProg M (Option String) := do
  let opened : Bool ← call .openRead
  if opened then call .read else pure none

/-- `record_mtime()`. -/
def recordMtime (s : ConfigState M) : FileProg M (ConfigState M) := do
  let mtime : Option M ← call .lastWriteTime
  pure { s with lastSeenMtime := mtime.getD s.lastSeenMtime }

/-- `parse_file_into(instance)` once the file is read; `none` is an exception, which
leaves the instance as it was. -/
def parseContents (g : Glaze) (type : MetaType) (s : ConfigState M) (contents : Option String) :
    ConfigState M × Option Bool :=
  match parseFileInto g.readJson type contents s.inst with
  | none => (s, none)
  | some (ok, inst) => ({ s with inst }, some ok)

/-- A parse records no modification time. -/
theorem lastSeenMtime_parseContents {g : Glaze} {type : MetaType} {s : ConfigState M}
    (contents : Option String) :
    (parseContents g type s contents).1.lastSeenMtime = s.lastSeenMtime := by
  unfold parseContents
  split
  · rfl
  · rfl

/-- `load_or_provision(instance)`; without an outcome an exception has escaped. -/
def loadOrProvision (g : Glaze) (type : MetaType) (s : ConfigState M) :
    FileProg M (ConfigState M × Option LoadOutcome) := do
  let file : Option Bool ← call .fileExists
  match file with
  | none => pure (s, some .provisionFailed)
  | some false =>
      let json := metaComponentToJson g type s.inst
      if json = "" then pure (s, some .provisionFailed)
      else do
        let written : Bool ← writeFile json
        if written then do
          let s ← recordMtime s
          pure (s, some .provisionedNewFile)
        else pure (s, some .provisionFailed)
  | some true => do
      let s ← recordMtime s
      let contents ← readContents
      let x := parseContents g type s contents
      pure (x.1, x.2.map fun ok ↦ if ok then .loadedExistingFile else .parseFailed)

/-- `poll_reload(instance)`; without an outcome an exception has escaped. -/
def pollReload [DecidableEq M] (g : Glaze) (type : MetaType) (s : ConfigState M) :
    FileProg M (ConfigState M × Option PollOutcome) := do
  let mtime : Option M ← call .lastWriteTime
  match mtime with
  | none => pure (s, some .unchanged)
  | some mtime =>
      if mtime = s.lastSeenMtime then pure (s, some .unchanged)
      else do
        let contents ← readContents
        let x := parseContents g type { s with lastSeenMtime := mtime } contents
        pure (x.1, x.2.map fun ok ↦ if ok then .reloaded else .failed)

/-- An outcome is reported as a success when the parse was one. -/
theorem map_ok_eq_some {α : Type} {a b : α} (hab : a ≠ b) {ok : Option Bool} :
    (ok.map fun ok ↦ if ok then a else b) = some a ↔ ok = some true := by
  rcases ok with _ | _ | _
  · exact iff_of_false nofun nofun
  · exact iff_of_false (fun h ↦ hab (Option.some.inj h).symm) nofun
  · exact iff_of_true rfl rfl

/-! ## What they do in any environment -/

section Wp

variable {R S : Type} {H : Handler (FileCall.Answer M) R S} {σ : S} {g : Glaze} {type : MetaType}
  {s : ConfigState M}

theorem wp_readContents {Q : Option String → S → Prop} :
    (readContents : FileProg M (Option String)).wp H Q σ ↔ ∀ x,
      ((H σ .openRead x).1 = true →
        ∀ y, Q (H (H σ .openRead x).2 .read y).1 (H (H σ .openRead x).2 .read y).2) ∧
      ((H σ .openRead x).1 = false → Q none (H σ .openRead x).2) := by
  unfold readContents
  rw [wp_call]
  refine forall_congr' fun x ↦ ?_
  rcases H σ .openRead x with ⟨_ | _, σ'⟩
  · exact ⟨fun h ↦ ⟨nofun, fun _ ↦ h⟩, fun h ↦ h.2 rfl⟩
  · exact ⟨fun h ↦ ⟨fun _ ↦ h, nofun⟩, fun h ↦ h.1 rfl⟩

theorem wp_writeFile {json : String} {Q : Bool → S → Prop} :
    (writeFile json : FileProg M Bool).wp H Q σ ↔ ∀ x,
      ((H σ .openWrite x).1 = true → ∀ y,
        Q (H (H σ .openWrite x).2 (.write json) y).1 (H (H σ .openWrite x).2 (.write json) y).2) ∧
      ((H σ .openWrite x).1 = false → Q false (H σ .openWrite x).2) := by
  unfold writeFile
  rw [wp_call]
  refine forall_congr' fun x ↦ ?_
  rcases H σ .openWrite x with ⟨_ | _, σ'⟩
  · exact ⟨fun h ↦ ⟨nofun, fun _ ↦ h⟩, fun h ↦ h.2 rfl⟩
  · exact ⟨fun h ↦ ⟨fun _ ↦ h, nofun⟩, fun h ↦ h.1 rfl⟩

theorem wp_recordMtime {Q : ConfigState M → S → Prop} :
    (recordMtime s).wp H Q σ ↔ ∀ x,
      Q ⟨Option.getD (H σ .lastWriteTime x).1 s.lastSeenMtime, s.inst⟩
        (H σ .lastWriteTime x).2 := .rfl

/-- A load or a provision, by what `exists` answers. -/
theorem wp_loadOrProvision {Q : ConfigState M × Option LoadOutcome → S → Prop}
    (hfailed : ∀ x, (H σ .fileExists x).1 = none →
      Q (s, some .provisionFailed) (H σ .fileExists x).2)
    (habsent : ∀ x, (H σ .fileExists x).1 = some false →
      (metaComponentToJson g type s.inst = "" →
        Q (s, some .provisionFailed) (H σ .fileExists x).2) ∧
      (metaComponentToJson g type s.inst ≠ "" →
        (writeFile (metaComponentToJson g type s.inst)).wp H (fun written σ ↦
          (written = true → (recordMtime s).wp H (fun s ↦ Q (s, some .provisionedNewFile)) σ) ∧
          (written = false → Q (s, some .provisionFailed) σ)) (H σ .fileExists x).2))
    (hpresent : ∀ x, (H σ .fileExists x).1 = some true →
      (recordMtime s).wp H (fun s ↦ readContents.wp H fun contents ↦
        Q (let x := parseContents g type s contents
          (x.1, x.2.map fun ok ↦ if ok then .loadedExistingFile else .parseFailed)))
        (H σ .fileExists x).2) :
    (loadOrProvision g type s).wp H Q σ := by
  unfold loadOrProvision
  rw [wp_call]
  intro x
  have hfailed := hfailed x
  have habsent := habsent x
  have hpresent := hpresent x
  revert hfailed habsent hpresent
  rcases H σ .fileExists x with ⟨_ | _ | _, σ'⟩
  · intro hfailed _ _
    exact hfailed rfl
  · intro _ habsent _
    by_cases hjson : metaComponentToJson g type s.inst = ""
    · simp only [if_pos hjson]
      exact (habsent rfl).1 hjson
    · simp only [if_neg hjson]
      rw [Prog.wp_bind]
      refine ((habsent rfl).2 hjson).mono fun written σ h ↦ ?_
      cases written with
      | false => exact h.2 rfl
      | true =>
          simp only [if_true]
          rw [Prog.wp_bind]
          exact h.1 rfl
  · intro _ _ hpresent
    simp only [Prog.wp_bind]
    exact hpresent rfl

/-- A poll, by the modification time it sees. -/
theorem wp_pollReload [DecidableEq M] {Q : ConfigState M × Option PollOutcome → S → Prop}
    (hseen : ∀ x, Option.getD (H σ .lastWriteTime x).1 s.lastSeenMtime = s.lastSeenMtime →
      Q (s, some .unchanged) (H σ .lastWriteTime x).2)
    (hnew : ∀ x m, (H σ .lastWriteTime x).1 = some m → m ≠ s.lastSeenMtime →
      readContents.wp H (fun contents ↦
        Q (let x := parseContents g type { s with lastSeenMtime := m } contents
          (x.1, x.2.map fun ok ↦ if ok then .reloaded else .failed)))
        (H σ .lastWriteTime x).2) :
    (pollReload g type s).wp H Q σ := by
  unfold pollReload
  rw [wp_call]
  intro x
  have hseen := hseen x
  have hnew := hnew x
  revert hseen hnew
  rcases H σ .lastWriteTime x with ⟨_ | m, σ'⟩
  · intro hseen _
    exact hseen rfl
  · intro hseen hnew
    by_cases hm : m = s.lastSeenMtime
    · simp only [if_pos hm]
      exact hseen hm
    · simp only [if_neg hm, Prog.wp_bind]
      exact hnew m rfl hm

end Wp

end Konative.App.Config
