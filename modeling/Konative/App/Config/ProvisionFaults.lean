import Konative.App.Config.PollReload

/-!
# Provisioning on a file system that fails

A sequence of launches calls `load_or_provision` on one path, each with an instance of
its own.  Nobody else touches the file, but storage runs full and processes are killed:
a write lands up to any of its bytes, and a launch ends after any of its file-system
steps.

`write_file` opens the file, which truncates it, and then writes.  Where the write is
not done in full (`CutShort`), the file it leaves is there and is no config, and the
next launch cannot parse it.  Where it is done, the next launch can parse the file unless
a `float` in it is read out of range (`Unreadable`).  Nothing else goes wrong
(`neverUnparseable_iff`).
-/

namespace Konative.App.Config

open Reflect

variable {M : Type}

/-! ## Launches -/

/-- One launch, and how the file system behaves in it.  A launch makes each call at most
once. -/
structure Launch (M : Type) where
  inst : Instance
  /-- How many steps it makes before it is killed, if it is not done by then. -/
  steps : Nat
  /-- The file can be opened for writing. -/
  opens : Bool
  /-- The byte the write fails after, if it fails. -/
  failsAfter : Option Nat
  mtime : Option M

/-- The first bytes of a text. -/
def truncated (json : String) (n : Nat) : String := .ofList (json.toList.take n)

/-- The file system in a launch.  The state is the content of the file, if there is one. -/
def faulty (l : Launch M) : Handler (FileCall.Answer M) Unit (Option String)
  | file, .fileExists, _ => (some file.isSome, file)
  | file, .openWrite, _ => (l.opens, if l.opens then some "" else file)
  | file, .write json, _ =>
      (l.failsAfter.isNone, file.map (· ++ l.failsAfter.elim json (truncated json)))
  | file, .lastWriteTime, _ => (l.mtime, file)
  | file, .openRead, _ => (file.isSome, file)
  | file, .read, _ => (file, file)

section Launches

variable (g : Glaze) (type : ReflectedType) (epoch : M)

/-- The text a launch provisions. -/
def Launch.json (l : Launch M) : String := metaComponentToJson g type.toMeta l.inst

/-- A launch on this file: what `load_or_provision` returns, when the launch lives to see
it, and the file it leaves. -/
def Launch.run (l : Launch M) (file : Option String) :
    Option (ConfigState M × Option LoadOutcome) × Option String :=
  ((loadOrProvision g type.toMeta ⟨epoch, l.inst⟩).cut l.steps).run (faulty l) (fun _ ↦ ()) file

/-- The file that launches leave. -/
def fileAfter (ls : List (Launch M)) (file : Option String) : Option String :=
  ls.foldl (fun file l ↦ (l.run g type epoch file).2) file

/-- A text that parses, whatever the instance. -/
def Parses (text : String) : Prop :=
  ∀ inst, ∃ inst', metaComponentFromJson g.readJson type.toMeta inst text = .returned true inst'

/-- The launch does not report a file it cannot parse, nor does it leave one. -/
structure LeavesParseable (l : Launch M) (file : Option String) : Prop where
  outcome : ∀ s, (l.run g type epoch file).1 ≠ some (s, some .parseFailed)
  file : ∀ text, (l.run g type epoch file).2 = some text → Parses g type text

/-- Along these launches, from a fresh install, no file is left that cannot be parsed. -/
def NeverUnparseable (ls : List (Launch M)) : Prop :=
  ∀ u l v, ls = u ++ l :: v → LeavesParseable g type epoch l (fileAfter g type epoch u none)

/-- The launch finds no file and opens it for writing. -/
structure Provisions (l : Launch M) (file : Option String) : Prop where
  absent : file = none
  reaches : 2 ≤ l.steps
  opens : l.opens = true

/-- And does not write all of it: it is killed before the write, or the write fails. -/
structure CutShort (l : Launch M) (file : Option String) : Prop extends Provisions l file where
  short : l.steps = 2 ∨ ∃ n, l.failsAfter = some n ∧ n < (l.json g type).length

/-- And has a `float` whose text is read out of range. -/
structure Unreadable (texts : JsonTexts) (l : Launch M) (file : Option String) : Prop
    extends Provisions l file where
  outOfRange : ∃ f ∈ type.fields, ¬ g.ReadsInRange texts (l.inst f.1)

/-- An instance that can be written. -/
structure Serializable (texts : JsonTexts) (inst : Instance) : Prop where
  wellTyped : WellTyped type.fields inst
  finite : ∀ f ∈ type.fields, (inst f.1).Finite
  numbers : ∀ f ∈ type.fields, g.WritesNumber texts (inst f.1)

/-- The parser does not take a part of an object for a document. -/
def RejectsTruncated (texts : JsonTexts) : Prop :=
  ∀ (ms : List (String × String)) (members : List (String × Json)),
    List.Forall₂ (fun m x ↦ texts.key m.1 x.1 ∧ texts.value m.2 x.2) ms members →
    ∀ p q, p ++ q = FlatJson.objectText ms → q ≠ "" → g.readJson p = none

end Launches

/-! ## One launch -/

section OneLaunch

variable {g : Glaze} {type : ReflectedType} {epoch : M} {l : Launch M}

/-- A text that parses is read. -/
theorem parseContents_of_parses {s : ConfigState M} {text : String} (h : Parses g type text) :
    (parseContents g type.toMeta s (some text)).2 = some true := by
  obtain ⟨inst', hinst'⟩ := h s.inst
  simp only [parseContents, parseFileInto, hinst']

/-- A launch that finds a file leaves it as it is. -/
theorem file_present (l : Launch M) (text : String) :
    (l.run g type epoch (some text)).2 = some text := by
  obtain ⟨inst, steps, opens, failsAfter, mtime⟩ := l
  match steps with
  | 0 | 1 | 2 | 3 | 4 | _ + 5 => rfl

/-- And can read it when it parses. -/
theorem leavesParseable_present {text : String} (h : Parses g type text) :
    LeavesParseable g type epoch l (some text) where
  outcome s hs := by
    obtain ⟨inst, steps, opens, failsAfter, mtime⟩ := l
    match steps with
    | 0 | 1 | 2 | 3 | 4 => cases hs
    | _ + 5 =>
        have hread := parseContents_of_parses (s := ⟨mtime.getD epoch, inst⟩) h
        have hmap : (parseContents g type.toMeta ⟨mtime.getD epoch, inst⟩ (some text)).2.map
            (fun ok ↦ if ok then LoadOutcome.loadedExistingFile else .parseFailed) =
              some .parseFailed := congrArg Prod.snd (Option.some.inj hs)
        rw [hread] at hmap
        cases hmap
  file text' ht := by
    obtain rfl := Option.some.inj ((file_present l text).symm.trans ht)
    exact h

/-- A launch that finds no file does not fail to parse it, and leaves none or one with
what it wrote. -/
theorem run_absent (epoch : M) (hjson : l.json g type ≠ "") :
    (∀ s, (l.run g type epoch none).1 ≠ some (s, some .parseFailed)) ∧
    (l.run g type epoch none).2 =
      if l.steps < 2 ∨ l.opens = false then none
      else if l.steps = 2 then some ""
      else some (l.failsAfter.elim (l.json g type) (truncated (l.json g type))) := by
  obtain ⟨inst, steps, opens, failsAfter, mtime⟩ := l
  have hjson : metaComponentToJson g type.toMeta inst ≠ "" := hjson
  rw [Launch.run, loadOrProvision]
  simp only [if_neg hjson]
  match steps, opens, failsAfter with
  | 0, _, _ | 1, _, _ => exact ⟨nofun, rfl⟩
  | 2, false, _ | n + 3, false, _ => exact ⟨nofun, rfl⟩
  | 2, true, _ => exact ⟨nofun, rfl⟩
  | 3, true, none | 4, true, none | n + 5, true, none => exact ⟨nofun, rfl⟩
  | 3, true, some k | n + 4, true, some k => exact ⟨nofun, rfl⟩

theorem truncated_append_drop (json : String) (n : Nat) :
    truncated json n ++ .ofList (json.toList.drop n) = json := by
  rw [truncated, ← String.ofList_append, List.take_append_drop, String.ofList_toList]

theorem truncated_of_length_le {json : String} {n : Nat} (h : json.length ≤ n) :
    truncated json n = json := by
  rw [truncated, List.take_of_length_le (String.length_toList ▸ h), String.ofList_toList]

theorem provisions_none : Provisions l none ↔ ¬ (l.steps < 2 ∨ l.opens = false) := by
  rw [not_or, Nat.not_lt, Bool.not_eq_false]
  exact ⟨fun h ↦ ⟨h.reaches, h.opens⟩, fun h ↦ ⟨rfl, h.1, h.2⟩⟩

/-- A launch that provisions and is not cut short leaves all it was to write. -/
theorem file_of_not_cutShort (epoch : M) (hjson : l.json g type ≠ "") (hprov : Provisions l none)
    (hcut : ¬ CutShort g type l none) :
    (l.run g type epoch none).2 = some (l.json g type) := by
  have hsteps : l.steps ≠ 2 := fun h ↦ hcut ⟨hprov, .inl h⟩
  rw [(run_absent epoch hjson).2, if_neg (provisions_none.mp hprov), if_neg hsteps]
  cases hfails : l.failsAfter with
  | none => rfl
  | some n =>
      rw [Option.elim_some, truncated_of_length_le]
      by_contra hlt
      exact hcut ⟨hprov, .inr ⟨n, hfails, Nat.not_le.mp hlt⟩⟩

/-- A launch that is not cut short leaves no file, or one that parses if what it was to
write does. -/
theorem leavesParseable_absent (hjson : l.json g type ≠ "")
    (hparse : Provisions l none → Parses g type (l.json g type)) (hcut : ¬ CutShort g type l none) :
    LeavesParseable g type epoch l none := by
  obtain ⟨houtcome, hfile⟩ := run_absent epoch hjson
  refine ⟨houtcome, fun text ht ↦ ?_⟩
  by_cases hprov : Provisions l none
  · rw [file_of_not_cutShort epoch hjson hprov hcut] at ht
    obtain rfl := Option.some.inj ht
    exact hparse hprov
  · rw [hfile, if_pos (not_not.mp (mt provisions_none.mpr hprov))] at ht
    cases ht

/-- A launch that is cut short leaves a part of what it was to write. -/
theorem exists_part_of_cutShort (epoch : M) (hjson : l.json g type ≠ "")
    (hcut : CutShort g type l none) :
    ∃ p q, p ++ q = l.json g type ∧ q ≠ "" ∧ (l.run g type epoch none).2 = some p := by
  rw [(run_absent epoch hjson).2, if_neg (provisions_none.mp hcut.toProvisions)]
  split
  · exact ⟨"", _, String.empty_append, hjson, rfl⟩
  · rename_i hsteps
    obtain ⟨n, hfails, hlt⟩ := hcut.short.resolve_left hsteps
    refine ⟨_, _, truncated_append_drop _ n, fun hnil ↦ ?_, by rw [hfails, Option.elim_some]⟩
    have hdrop : (l.json g type).toList.drop n = [] := by
      simpa using congrArg String.toList hnil
    rw [List.drop_eq_nil_iff, String.length_toList] at hdrop
    exact Nat.not_le.mpr hlt hdrop

/-- What is not read does not parse. -/
theorem not_parses_of_none {text : String} (h : g.readJson text = none) :
    ¬ Parses g type text := by
  intro hparse
  obtain ⟨inst', hinst'⟩ := hparse fun _ ↦ .other
  simp only [metaComponentFromJson, ReflectedType.toMeta, h] at hinst'
  cases hinst'

variable {texts : JsonTexts}

section Written

variable {inst : Instance} (laws : g.Lawful texts) (h : Serializable g type texts inst)
include laws h

/-- An instance that can be written is. -/
theorem Serializable.written : metaComponentToJson g type.toMeta inst ≠ "" :=
  (writesObject_of_order laws type.nodup h.wellTyped h.finite h.numbers).nonempty

/-- And what is written parses exactly when no `float` is read out of range. -/
theorem Serializable.parses_iff : Parses g type (metaComponentToJson g type.toMeta inst) ↔
    ∀ f ∈ type.fields, g.ReadsInRange texts (inst f.1) := by
  constructor
  · intro hparse
    obtain ⟨inst', hinst'⟩ := hparse fun _ ↦ .other
    exact inRange_of_returned laws type.nodup h.wellTyped h.finite h.numbers hinst'
  · intro hrange y
    obtain ⟨y', hy', -⟩ :=
      reads_of_inRange laws type.nodup h.wellTyped h.finite h.numbers hrange y
    exact ⟨y', hy'⟩

end Written

section OnFile

variable {file : Option String} (laws : g.Lawful texts) (h : Serializable g type texts l.inst)
include laws h

/-- A launch that is not cut short and can read what it writes does what it should on a
file that parses. -/
theorem leavesParseable (hfile : ∀ text, file = some text → Parses g type text)
    (hcut : ¬ CutShort g type l file) (hread : ¬ Unreadable g type texts l file) :
    LeavesParseable g type epoch l file := by
  cases file with
  | none =>
      refine leavesParseable_absent (h.written laws) (fun hprov ↦ ?_) hcut
      refine (h.parses_iff laws).mpr fun f hf ↦ ?_
      by_contra hrange
      exact hread ⟨hprov, f, hf, hrange⟩
  | some text => exact leavesParseable_present (hfile text rfl)

/-- A launch that is cut short does not. -/
theorem not_leavesParseable_of_cutShort (hpart : RejectsTruncated g texts)
    (hcut : CutShort g type l file) : ¬ LeavesParseable g type epoch l file := by
  intro hleaves
  obtain rfl := hcut.absent
  obtain ⟨p, q, hpq, hq, hleft⟩ := exists_part_of_cutShort epoch (h.written laws) hcut
  obtain ⟨m, member, -, htext, hms⟩ := exists_written laws h.wellTyped h.finite h.numbers
  exact not_parses_of_none (hpart _ _ hms p q (hpq.trans htext) hq) (hleaves.file p hleft)

/-- And one that cannot read what it writes does not either. -/
theorem not_leavesParseable_of_unreadable (hpart : RejectsTruncated g texts)
    (hread : Unreadable g type texts l file) : ¬ LeavesParseable g type epoch l file := by
  by_cases hcut : CutShort g type l file
  · exact not_leavesParseable_of_cutShort laws h hpart hcut
  · intro hleaves
    obtain rfl := hread.absent
    have hleft := file_of_not_cutShort epoch (h.written laws) hread.toProvisions hcut
    obtain ⟨f, hf, hrange⟩ := hread.outOfRange
    exact hrange ((h.parses_iff laws).mp (hleaves.file _ hleft) f hf)

end OnFile

end OneLaunch

/-! ## Sequences of launches -/

section Sequences

variable {g : Glaze} {type : ReflectedType} {epoch : M} {texts : JsonTexts}

theorem fileAfter_concat (u : List (Launch M)) (l : Launch M) (file : Option String) :
    fileAfter g type epoch (u ++ [l]) file =
      (l.run g type epoch (fileAfter g type epoch u file)).2 := by
  rw [fileAfter, List.foldl_append]
  rfl

/-- As long as no launch is cut short or cannot read what it writes, the file parses. -/
theorem parses_fileAfter (laws : g.Lawful texts) {u : List (Launch M)}
    (hu : ∀ l ∈ u, Serializable g type texts l.inst)
    (hgood : ∀ v l w, u = v ++ l :: w → ¬ CutShort g type l (fileAfter g type epoch v none) ∧
      ¬ Unreadable g type texts l (fileAfter g type epoch v none)) :
    ∀ text, fileAfter g type epoch u none = some text → Parses g type text := by
  induction u using List.reverseRecOn with
  | nil => exact nofun
  | append_singleton u l ih =>
      rw [fileAfter_concat]
      obtain ⟨hcut, hread⟩ := hgood u l [] rfl
      refine (leavesParseable laws (hu l (by simp)) (ih ?_ ?_) hcut hread).file
      · exact fun l' hl' ↦ hu l' (List.mem_append_left _ hl')
      · rintro v l' w rfl
        exact hgood v l' (w ++ [l]) (by simp)

/-- Exactly the sequences of launches none of which is cut short, or writes a `float` that
is read out of range, never leave a file that cannot be parsed, and never report one. -/
theorem neverUnparseable_iff (epoch : M) (laws : g.Lawful texts) (hpart : RejectsTruncated g texts)
    (ls : List (Launch M)) (hls : ∀ l ∈ ls, Serializable g type texts l.inst) :
    NeverUnparseable g type epoch ls ↔
      ∀ u l v, ls = u ++ l :: v → ¬ CutShort g type l (fileAfter g type epoch u none) ∧
        ¬ Unreadable g type texts l (fileAfter g type epoch u none) := by
  constructor
  · rintro h u l v rfl
    have hl : Serializable g type texts l.inst := hls l (by simp)
    constructor
    · exact fun hcut ↦ not_leavesParseable_of_cutShort laws hl hpart hcut (h u l v rfl)
    · exact fun hread ↦ not_leavesParseable_of_unreadable laws hl hpart hread (h u l v rfl)
  · rintro h u l v rfl
    obtain ⟨hcut, hread⟩ := h u l v rfl
    refine leavesParseable laws (hls l (by simp)) ?_ hcut hread
    refine parses_fileAfter laws (fun l' hl' ↦ hls l' (List.mem_append_left _ hl')) ?_
    rintro v' l' w rfl
    exact h v' l' (w ++ l :: v) (by simp)

end Sequences

/-! ## Two launches of the app -/

/-- The defaults of `AppConfig`. -/
def appDefaults : Instance := fun name ↦
  .int (if name = "tick_log_interval" then 120 else 300)

theorem serializable_appDefaults :
    Serializable plainGlaze appConfigType plainTexts appDefaults where
  wellTyped := List.forall_mem_cons.mpr ⟨rfl, List.forall_mem_singleton.mpr rfl⟩
  finite _ _ := trivial
  numbers _ _ := trivial

/-- The text of an object is not cut short into another. -/
theorem rejectsTruncated_plain : RejectsTruncated plainGlaze plainTexts := by
  intro ms members hms p q hpq hq
  obtain ⟨l, rfl, rfl, hl⟩ := exists_literals hms
  have hread := FlatJson.read_objectText hl
  rw [← hpq] at hread
  exact congrArg (Option.map Json.object) (FlatJson.read_of_prefix hread hq)

/-- A launch of the app that is left to make `steps` steps; its write succeeds. -/
def appLaunch (steps : Nat) : Launch Nat := ⟨appDefaults, steps, true, none, some 1⟩

/-- Two launches whose write is done in full. -/
theorem neverUnparseable_twice :
    NeverUnparseable plainGlaze appConfigType 0 [appLaunch 9, appLaunch 9] := by
  refine (neverUnparseable_iff 0 plainGlaze_lawful rejectsTruncated_plain _ ?_).mpr ?_
  · simp only [List.forall_mem_cons]
    exact ⟨serializable_appDefaults, serializable_appDefaults, nofun⟩
  · intro u l v hls
    obtain rfl : l = appLaunch 9 := by
      have hl : l ∈ List.replicate 2 (appLaunch 9) := by
        rw [List.replicate, List.replicate, List.replicate, hls]
        exact List.mem_append_right _ List.mem_cons_self
      exact List.eq_of_mem_replicate hl
    constructor
    · rintro ⟨-, h | ⟨n, h, -⟩⟩
      · cases h
      · cases h
    · rintro ⟨-, f, hf, hrange⟩
      exact hrange trivial

/-- A first launch that is killed when it has opened the file, and the launch after it:
it finds a file, an empty one, and cannot parse it. -/
theorem emptyFile_parseFailed :
    (∀ l ∈ [appLaunch 2, appLaunch 9],
      Serializable plainGlaze appConfigType plainTexts l.inst) ∧
    fileAfter plainGlaze appConfigType 0 [appLaunch 2] none = some "" ∧
    ((appLaunch 9).run plainGlaze appConfigType 0 (some "")).1 =
      some (⟨1, appDefaults⟩, some .parseFailed) ∧
    ¬ NeverUnparseable plainGlaze appConfigType 0 [appLaunch 2, appLaunch 9] := by
  have hjson : (appLaunch 2).json plainGlaze appConfigType ≠ "" :=
    serializable_appDefaults.written plainGlaze_lawful
  have hfile : fileAfter plainGlaze appConfigType 0 [appLaunch 2] none = some "" :=
    (run_absent 0 hjson).2
  have hrun : ((appLaunch 9).run plainGlaze appConfigType 0 (some "")).1 =
      some (⟨1, appDefaults⟩, some .parseFailed) := rfl
  refine ⟨?_, hfile, hrun, fun h ↦ ?_⟩
  · simp only [List.forall_mem_cons]
    exact ⟨serializable_appDefaults, serializable_appDefaults, nofun⟩
  · have hsecond := (h [appLaunch 2] (appLaunch 9) [] rfl).outcome
    rw [hfile] at hsecond
    exact hsecond _ hrun

end Konative.App.Config
