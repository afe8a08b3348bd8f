import Konative.App.Config.ProvisionFaults
import Mathlib.Algebra.Order.BigOperators.Group.List
import Mathlib.Algebra.Order.Group.Nat
import Mathlib.Algebra.GroupWithZero.Nat

/-!
# Edits between the steps

An editor replaces the content of the config file at any points between the steps of
one `load_or_provision` and of the polls after it, under modification times that were
not used before.  Everything the program asks of the file system succeeds.

A load and a poll look at the modification time before they read, so what is written
after that look shows at the next poll.  Provisioning looks only after it has written.
What the editor saved since `exists` is then overwritten, or its modification time is
recorded with its content unread, and no later poll sees a change (`Masked`).  In every
other case the last content is read (`noEditLost_iff`).
-/

namespace Konative.App.Config

open Reflect

variable {M : Type}

/-! ## The edited file -/

/-- The file replaced as a whole.  The modification time is none of those used so far. -/
structure Edit (M : Type) where
  text : String
  mtime : List M → M
  fresh : ∀ used, mtime used ∉ used

/-- The file, and the modification times it has had. -/
structure EditedFile (M : Type) where
  file : Option (String × M)
  used : List M
  /-- Somebody else's content was there and has not been read since. -/
  unread : Bool

namespace EditedFile

/-- A content the program did not write. -/
def edit (e : EditedFile M) (x : Edit M) : EditedFile M where
  file := some (x.text, x.mtime e.used)
  used := x.mtime e.used :: e.used
  unread := true

/-- Edits, one after the other. -/
def edits (e : EditedFile M) (xs : List (Edit M)) : EditedFile M := xs.foldl edit e

/-- A content the program writes. -/
def store (e : EditedFile M) (text : String) (mtime : M) : EditedFile M :=
  { e with file := some (text, mtime), used := mtime :: e.used }

/-- The modification time that is reported. -/
def mtime (e : EditedFile M) : Option M := e.file.map Prod.snd

end EditedFile

/-- What comes with a step of the program: the edits since the step before, and the
modification time that a write gets. -/
structure Moment (M : Type) where
  edits : List (Edit M)
  clock : M

/-- The file as it is edited.  To open and to write, and to open and to read, are one
step. -/
def edited : Handler (FileCall.Answer M) (Moment M) (EditedFile M)
  | e, .fileExists, t => (some (e.edits t.edits).file.isSome, e.edits t.edits)
  | e, .openWrite, t => (true, (e.edits t.edits).store "" t.clock)
  | e, .write json, t => (true, e.store json t.clock)
  | e, .lastWriteTime, t => ((e.edits t.edits).mtime, e.edits t.edits)
  | e, .openRead, t => ((e.edits t.edits).file.isSome, e.edits t.edits)
  | e, .read, _ => (e.file.map Prod.fst, { e with unread := false })

section Programs

variable [DecidableEq M] (g : Glaze) (type : ReflectedType)

/-- The file as the program finds it. -/
def EditedFile.found (file : Option (String × M)) : EditedFile M :=
  ⟨file, (file.map Prod.snd).toList, file.isSome⟩

omit [DecidableEq M] in
/-- `load_or_provision`, and the file after it. -/
def afterLoad (s : ConfigState M) (moments : Nat → Moment M) (e : EditedFile M) :
    ConfigState M × EditedFile M :=
  let r := (loadOrProvision g type.toMeta s).run edited moments e
  (r.1.1, r.2)

/-- One `poll_reload`, and the file after it. -/
def afterPoll (x : ConfigState M × EditedFile M) (moments : Nat → Moment M) :
    ConfigState M × EditedFile M :=
  let r := (pollReload g type.toMeta x.1).run edited moments x.2
  (r.1.1, r.2)

/-- A load and the polls after it. -/
def session (s : ConfigState M) (file : Option (String × M)) (load : Nat → Moment M)
    (polls : List (Nat → Moment M)) : ConfigState M × EditedFile M :=
  polls.foldl (afterPoll g type) (afterLoad g type s load (.found file))

/-- Once the editor has stopped and one more poll is done, the last content that is not
the program's own has been read. -/
def NoEditLost (s : ConfigState M) (file : Option (String × M)) (load : Nat → Moment M)
    (polls : List (Nat → Moment M)) : Prop :=
  ∀ last : Nat → Moment M, (∀ n, (last n).edits = []) →
    (session g type s file load (polls ++ [last])).2.unread = false

omit [DecidableEq M] in
/-- There is no file when the load begins; an edit comes before it opens the file, or
after it has written it and before it asks for the modification time; and there is none
before a later poll asks for it. -/
structure Masked (file : Option (String × M)) (load : Nat → Moment M)
    (polls : List (Nat → Moment M)) : Prop where
  absent : file = none
  stillAbsent : (load 0).edits = []
  edited : (load 1).edits ≠ [] ∨ (load 3).edits ≠ []
  noLater : ∀ moments ∈ polls, (moments 0).edits = []

end Programs

/-! ## Edits -/

namespace EditedFile

variable {e : EditedFile M}

/-- The modification time of the file is one of those it has had. -/
def Stamped (e : EditedFile M) : Prop := ∀ m, e.mtime = some m → m ∈ e.used

theorem stamped_found (file : Option (String × M)) : (found file).Stamped := fun m h ↦ by
  rw [mtime, found] at h
  rw [found, h]
  exact List.mem_singleton_self m

theorem stamped_store (text : String) (m : M) : (e.store text m).Stamped := by
  rintro _ ⟨⟩
  exact List.mem_cons_self

theorem edits_concat (xs : List (Edit M)) (x : Edit M) :
    e.edits (xs ++ [x]) = (e.edits xs).edit x := by
  rw [edits, List.foldl_append]
  rfl

theorem used_edits (e : EditedFile M) (xs : List (Edit M)) : e.used ⊆ (e.edits xs).used := by
  induction xs using List.reverseRecOn with
  | nil => exact List.Subset.refl _
  | append_singleton xs x ih =>
      rw [edits_concat]
      exact List.subset_cons_of_subset _ ih

/-- After edits the file is there under a modification time it has not had before, and
unread. -/
theorem edits_of_ne_nil {xs : List (Edit M)} (h : xs ≠ []) :
    (e.edits xs).unread = true ∧
      ∃ m, (e.edits xs).mtime = some m ∧ m ∉ e.used ∧ m ∈ (e.edits xs).used := by
  obtain ⟨xs, x, rfl⟩ := List.eq_nil_or_concat' xs |>.resolve_left h
  rw [edits_concat]
  exact ⟨rfl, _, rfl, fun hm ↦ x.fresh _ (used_edits e xs hm), List.mem_cons_self⟩

theorem Stamped.edits (h : e.Stamped) (xs : List (Edit M)) : (e.edits xs).Stamped := by
  by_cases hxs : xs = []
  · subst hxs
    exact h
  · obtain ⟨-, m, hm, -, hused⟩ := edits_of_ne_nil (e := e) hxs
    intro m' hm'
    obtain rfl := Option.some.inj (hm.symm.trans hm')
    exact hused

/-- A file that is there stays there. -/
theorem exists_mtime_edits {m : M} (h : e.mtime = some m) (xs : List (Edit M)) :
    ∃ m', (e.edits xs).mtime = some m' := by
  by_cases hxs : xs = []
  · subst hxs
    exact ⟨m, h⟩
  · obtain ⟨-, m', hm', -⟩ := edits_of_ne_nil (e := e) hxs
    exact ⟨m', hm'⟩

theorem isSome_file_iff : e.file.isSome = true ↔ ∃ m, e.mtime = some m := by
  rw [← Option.isSome_iff_exists, mtime, Option.isSome_map]

end EditedFile

/-! ## What is known of the file -/

/-- The content is read, or shows at the next poll. -/
structure Watched (x : ConfigState M × EditedFile M) : Prop where
  stamped : x.2.Stamped
  present : ∃ m, x.2.mtime = some m
  known : x.1.lastSeenMtime ∈ x.2.used
  read : x.2.mtime = some x.1.lastSeenMtime → x.2.unread = false

/-- The content is unread, and its modification time is the one recorded. -/
structure Missed (x : ConfigState M × EditedFile M) : Prop where
  stamped : x.2.Stamped
  recorded : x.2.mtime = some x.1.lastSeenMtime
  unread : x.2.unread = true

section Polls

variable [DecidableEq M] {g : Glaze} {type : ReflectedType} {x : ConfigState M × EditedFile M}
  {moments : Nat → Moment M}

/-- A poll that sees the modification time it recorded leaves all as it is. -/
theorem afterPoll_of_seen
    (h : (x.2.edits (moments 0).edits).mtime = some x.1.lastSeenMtime) :
    afterPoll g type x moments = (x.1, x.2.edits (moments 0).edits) := by
  have hwp : (pollReload g type.toMeta x.1).wp (Prog.scripted edited)
      (fun r e ↦ r.1 = x.1 ∧ e.2 = x.2.edits (moments 0).edits) (moments, x.2) := by
    refine wp_pollReload (fun _ _ ↦ ⟨rfl, rfl⟩) fun _ m hm hne ↦ ?_
    exact absurd (Option.some.inj (hm.symm.trans h)) hne
  have hrun := Prog.wp.run_scripted
    (Q := fun (r : ConfigState M × Option PollOutcome) e ↦
      r.1 = x.1 ∧ e = x.2.edits (moments 0).edits) hwp
  exact Prod.ext hrun.1 hrun.2

/-- A poll that sees another one records it and reads the file. -/
theorem afterPoll_of_new (g : Glaze) (type : ReflectedType) {m : M}
    (h : (x.2.edits (moments 0).edits).mtime = some m)
    (hm : m ≠ x.1.lastSeenMtime) :
    (afterPoll g type x moments).1.lastSeenMtime = m ∧
      (afterPoll g type x moments).2 =
        { (x.2.edits (moments 0).edits).edits (moments 1).edits with unread := false } := by
  have hwp : (pollReload g type.toMeta x.1).wp (Prog.scripted edited)
      (fun r e ↦ r.1.lastSeenMtime = m ∧ e.2 =
        { (x.2.edits (moments 0).edits).edits (moments 1).edits with unread := false })
      (moments, x.2) := by
    refine wp_pollReload (fun _ hseen ↦ ?_) fun _ m' hm' _ ↦ ?_
    · replace hseen : (x.2.edits (moments 0).edits).mtime.getD x.1.lastSeenMtime =
        x.1.lastSeenMtime := hseen
      rw [h] at hseen
      exact absurd hseen hm
    · obtain rfl := Option.some.inj (h.symm.trans hm')
      refine wp_readContents.mpr fun _ ↦ ⟨fun _ _ ↦ ⟨?_, rfl⟩, fun hclosed ↦ ?_⟩
      · exact lastSeenMtime_parseContents _
      · have hopen := EditedFile.isSome_file_iff.mpr
          (EditedFile.exists_mtime_edits h (moments 1).edits)
        exact absurd (hclosed.symm.trans hopen) nofun
  exact hwp.run_scripted (Q := fun (r : ConfigState M × Option PollOutcome) e ↦
    r.1.lastSeenMtime = m ∧ e =
      { (x.2.edits (moments 0).edits).edits (moments 1).edits with unread := false })

/-- A poll that reads the file has it watched. -/
theorem watched_of_new (g : Glaze) (type : ReflectedType) (hstamped : x.2.Stamped) {m : M}
    (h : (x.2.edits (moments 0).edits).mtime = some m) (hm : m ≠ x.1.lastSeenMtime) :
    Watched (afterPoll g type x moments) ∧ (afterPoll g type x moments).2.unread = false := by
  obtain ⟨hlast, hfile⟩ := afterPoll_of_new g type h hm
  have hstamped := hstamped.edits (moments 0).edits
  refine ⟨⟨?_, ?_, ?_, fun _ ↦ ?_⟩, ?_⟩
  · rw [hfile]
    exact hstamped.edits (moments 1).edits
  · rw [hfile]
    exact EditedFile.exists_mtime_edits h (moments 1).edits
  · rw [hlast, hfile]
    exact EditedFile.used_edits _ _ (hstamped m h)
  · rw [hfile]
  · rw [hfile]

/-- What is watched stays watched, and is read by a poll after the editor has stopped. -/
theorem Watched.afterPoll (h : Watched x) (moments : Nat → Moment M) :
    Watched (afterPoll g type x moments) ∧
      ((moments 0).edits = [] → (afterPoll g type x moments).2.unread = false) := by
  by_cases hedits : (moments 0).edits = []
  · have hsame : x.2.edits (moments 0).edits = x.2 := by
      rw [hedits]
      rfl
    obtain ⟨m, hm⟩ := h.present
    by_cases hlast : m = x.1.lastSeenMtime
    · subst hlast
      rw [afterPoll_of_seen (hsame.symm ▸ hm :), hsame]
      exact ⟨h, fun _ ↦ h.read hm⟩
    · have hnew := watched_of_new g type h.stamped (hsame ▸ hm) hlast
      exact ⟨hnew.1, fun _ ↦ hnew.2⟩
  · obtain ⟨-, m, hm, hfresh, -⟩ := EditedFile.edits_of_ne_nil (e := x.2) hedits
    have hne : m ≠ x.1.lastSeenMtime := fun he ↦ hfresh (he ▸ h.known)
    exact ⟨(watched_of_new g type h.stamped hm hne).1, fun hnil ↦ absurd hnil hedits⟩

/-- What is missed stays missed until the next edit, and is watched after it. -/
theorem Missed.afterPoll (h : Missed x) (moments : Nat → Moment M) :
    ((moments 0).edits = [] → Missed (afterPoll g type x moments)) ∧
      ((moments 0).edits ≠ [] → Watched (afterPoll g type x moments)) := by
  constructor
  · intro hedits
    have hsame : x.2.edits (moments 0).edits = x.2 := by
      rw [hedits]
      rfl
    rw [afterPoll_of_seen (hsame.symm ▸ h.recorded :), hsame]
    exact h
  · intro hedits
    obtain ⟨-, m, hm, hfresh, -⟩ := EditedFile.edits_of_ne_nil (e := x.2) hedits
    have hne : m ≠ x.1.lastSeenMtime := fun he ↦ hfresh (he ▸ h.stamped _ h.recorded)
    exact (watched_of_new g type h.stamped hm hne).1

/-! ### Sequences of polls -/

theorem Watched.polls (h : Watched x) (polls : List (Nat → Moment M)) :
    Watched (polls.foldl (Config.afterPoll g type) x) := by
  induction polls generalizing x with
  | nil => exact h
  | cons moments polls ih => exact ih (h.afterPoll moments).1

theorem Missed.polls (h : Missed x) {polls : List (Nat → Moment M)}
    (hpolls : ∀ moments ∈ polls, (moments 0).edits = []) :
    Missed (polls.foldl (Config.afterPoll g type) x) := by
  induction polls generalizing x with
  | nil => exact h
  | cons moments polls ih =>
      obtain ⟨hfirst, hrest⟩ := List.forall_mem_cons.mp hpolls
      exact ih ((h.afterPoll moments).1 hfirst) hrest

theorem Missed.watched_polls (h : Missed x) {polls : List (Nat → Moment M)}
    (hpolls : ¬ ∀ moments ∈ polls, (moments 0).edits = []) :
    Watched (polls.foldl (Config.afterPoll g type) x) := by
  induction polls generalizing x with
  | nil => exact absurd nofun hpolls
  | cons moments polls ih =>
      by_cases hfirst : (moments 0).edits = []
      · refine ih ((h.afterPoll moments).1 hfirst) fun hrest ↦ hpolls ?_
        exact List.forall_mem_cons.mpr ⟨hfirst, hrest⟩
      · exact ((h.afterPoll moments).2 hfirst).polls polls

end Polls

/-! ## The load -/

section Load

variable {g : Glaze} {type : ReflectedType} {s : ConfigState M} {e : EditedFile M}
  {moments : Nat → Moment M}

/-- A load that finds a file has it watched. -/
theorem watched_afterLoad (hstamped : e.Stamped)
    (hpresent : (e.edits (moments 0).edits).file.isSome = true) :
    Watched (afterLoad g type s moments e) := by
  obtain ⟨m, hm⟩ := EditedFile.exists_mtime_edits
    (EditedFile.isSome_file_iff.mp hpresent).choose_spec (moments 1).edits
  have hstamped := (hstamped.edits (moments 0).edits).edits (moments 1).edits
  have hwp : (loadOrProvision g type.toMeta s).wp (Prog.scripted edited)
      (fun r e ↦ Watched (r.1, e.2)) (moments, e) := by
    refine wp_loadOrProvision (fun _ ↦ nofun) (fun _ h ↦ ?_) fun _ _ ↦ ?_
    · exact absurd ((Option.some.inj h).symm.trans hpresent) nofun
    · refine wp_recordMtime.mpr fun _ ↦ wp_readContents.mpr fun _ ↦ ⟨fun _ _ ↦ ?_, fun hclosed ↦ ?_⟩
      · refine ⟨hstamped.edits _, EditedFile.exists_mtime_edits hm _, ?_, fun _ ↦ rfl⟩
        have hlast : (((e.edits (moments 0).edits).edits (moments 1).edits).mtime).getD
            s.lastSeenMtime = m := by rw [hm, Option.getD_some]
        have hused := EditedFile.used_edits _ (moments 2).edits (hstamped m hm)
        exact (congrArg (· ∈ _) ((lastSeenMtime_parseContents _).trans hlast)).mpr hused
      · have hopen := EditedFile.isSome_file_iff.mpr
          (EditedFile.exists_mtime_edits hm (moments 2).edits)
        exact absurd (hclosed.symm.trans hopen) nofun
  exact hwp.run_scripted (Q := fun (r : ConfigState M × Option LoadOutcome) e ↦ Watched (r.1, e))

/-- The file when provisioning has written it. -/
def provisioned (g : Glaze) (type : ReflectedType) (s : ConfigState M) (moments : Nat → Moment M)
    (e : EditedFile M) : EditedFile M :=
  (((e.edits (moments 0).edits).edits (moments 1).edits).store "" (moments 1).clock).store
    (metaComponentToJson g type.toMeta s.inst) (moments 2).clock

/-- Provisioning records the modification time of what is there after it has written. -/
theorem afterLoad_of_absent (hjson : metaComponentToJson g type.toMeta s.inst ≠ "")
    (habsent : (e.edits (moments 0).edits).file = none) :
    (afterLoad g type s moments e).2 =
      (provisioned g type s moments e).edits (moments 3).edits ∧
    (afterLoad g type s moments e).2.mtime =
      some (afterLoad g type s moments e).1.lastSeenMtime := by
  obtain ⟨m, hm⟩ := EditedFile.exists_mtime_edits
    (e := provisioned g type s moments e) rfl (moments 3).edits
  have hwp : (loadOrProvision g type.toMeta s).wp (Prog.scripted edited)
      (fun r e' ↦ e'.2 = (provisioned g type s moments e).edits (moments 3).edits ∧
        e'.2.mtime = some r.1.lastSeenMtime) (moments, e) := by
    refine wp_loadOrProvision (fun _ ↦ nofun) (fun _ _ ↦ ⟨fun h ↦ absurd h hjson, fun _ ↦ ?_⟩)
      fun _ h ↦ ?_
    · refine wp_writeFile.mpr fun _ ↦ ⟨fun _ _ ↦ ⟨fun _ ↦ ?_, nofun⟩, nofun⟩
      refine wp_recordMtime.mpr fun _ ↦ ⟨rfl, ?_⟩
      have hlast : ((provisioned g type s moments e).edits (moments 3).edits).mtime.getD
          s.lastSeenMtime = m := by rw [hm, Option.getD_some]
      exact hm.trans (congrArg some hlast.symm)
    · have hnone : (e.edits (moments 0).edits).file.isSome = true := Option.some.inj h
      rw [habsent] at hnone
      cases hnone
  exact hwp.run_scripted (Q := fun (r : ConfigState M × Option LoadOutcome) e' ↦
    e' = (provisioned g type s moments e).edits (moments 3).edits ∧
      e'.mtime = some r.1.lastSeenMtime)

/-- Provisioning that no edit came in has the file watched. -/
theorem watched_provisioned (hjson : metaComponentToJson g type.toMeta s.inst ≠ "")
    (h₀ : (moments 0).edits = []) (h₁ : (moments 1).edits = []) (h₃ : (moments 3).edits = []) :
    Watched (afterLoad g type s moments (.found none)) := by
  have habsent : ((EditedFile.found none).edits (moments 0).edits).file = none := by
    rw [h₀]
    rfl
  obtain ⟨hfile, hmtime⟩ := afterLoad_of_absent hjson habsent
  have hstamped : (afterLoad g type s moments (.found none)).2.Stamped := by
    rw [hfile]
    exact (EditedFile.stamped_store _ _).edits _
  refine ⟨hstamped, ⟨_, hmtime⟩, hstamped _ hmtime, fun _ ↦ ?_⟩
  rw [hfile, h₃]
  show ((EditedFile.found none).edits _ |>.edits _).unread = false
  rw [h₀, h₁]
  rfl

/-- Provisioning that an edit came in has missed it. -/
theorem missed_provisioned (hjson : metaComponentToJson g type.toMeta s.inst ≠ "")
    (h₀ : (moments 0).edits = [])
    (h : (moments 1).edits ≠ [] ∨ (moments 3).edits ≠ []) :
    Missed (afterLoad g type s moments (.found none)) := by
  have habsent : ((EditedFile.found none).edits (moments 0).edits).file = none := by
    rw [h₀]
    rfl
  obtain ⟨hfile, hmtime⟩ := afterLoad_of_absent hjson habsent
  refine ⟨?_, hmtime, ?_⟩
  · rw [hfile]
    exact (EditedFile.stamped_store _ _).edits _
  · rw [hfile]
    by_cases h₃ : (moments 3).edits = []
    · rw [h₃]
      exact (EditedFile.edits_of_ne_nil (h.resolve_right (not_not.mpr h₃))).1
    · exact (EditedFile.edits_of_ne_nil h₃).1

end Load

/-! ## Sessions -/

section Sessions

variable [DecidableEq M] {g : Glaze} {type : ReflectedType} {s : ConfigState M}
  {file : Option (String × M)} {load : Nat → Moment M} {polls : List (Nat → Moment M)}

/-- Where an edit is masked, nobody reads it. -/
theorem unread_of_masked (hjson : metaComponentToJson g type.toMeta s.inst ≠ "")
    (h : Masked file load polls) : (session g type s file load polls).2.unread = true := by
  obtain ⟨rfl, h₀, hedited, hpolls⟩ := h
  exact ((missed_provisioned hjson h₀ hedited).polls hpolls).unread

/-- In every other session the content is read, or shows at the next poll. -/
theorem watched_session (hjson : metaComponentToJson g type.toMeta s.inst ≠ "")
    (h : ¬ Masked file load polls) : Watched (session g type s file load polls) := by
  by_cases hpresent : ((EditedFile.found file).edits (load 0).edits).file.isSome = true
  · exact (watched_afterLoad (EditedFile.stamped_found file) hpresent).polls polls
  · have h₀ : (load 0).edits = [] := by
      by_contra hne
      obtain ⟨-, m, hm, -⟩ := EditedFile.edits_of_ne_nil (e := .found file) hne
      exact hpresent (EditedFile.isSome_file_iff.mpr ⟨m, hm⟩)
    obtain rfl : file = none := by
      rw [h₀] at hpresent
      exact Option.not_isSome_iff_eq_none.mp hpresent
    by_cases hedited : (load 1).edits ≠ [] ∨ (load 3).edits ≠ []
    · refine (missed_provisioned hjson h₀ hedited).watched_polls fun hpolls ↦ ?_
      exact h ⟨rfl, h₀, hedited, hpolls⟩
    · rw [not_or, not_not, not_not] at hedited
      exact (watched_provisioned hjson h₀ hedited.1 hedited.2).polls polls

theorem session_concat (last : Nat → Moment M) : session g type s file load (polls ++ [last]) =
    afterPoll g type (session g type s file load polls) last := by
  rw [session, List.foldl_append]
  rfl

/-- No edit is lost exactly where none is masked. -/
theorem noEditLost_iff (g : Glaze) (type : ReflectedType) (s : ConfigState M)
    (hjson : metaComponentToJson g type.toMeta s.inst ≠ "") (file : Option (String × M))
    (load : Nat → Moment M) (polls : List (Nat → Moment M)) :
    NoEditLost g type s file load polls ↔ ¬ Masked file load polls := by
  constructor
  · intro h hmasked
    have hread := h (fun _ ↦ ⟨[], s.lastSeenMtime⟩) fun _ ↦ rfl
    have hlast : Masked file load (polls ++ [fun _ ↦ ⟨[], s.lastSeenMtime⟩]) :=
      ⟨hmasked.absent, hmasked.stillAbsent, hmasked.edited, by
        rw [List.forall_mem_append]
        exact ⟨hmasked.noLater, List.forall_mem_singleton.mpr rfl⟩⟩
    rw [unread_of_masked hjson hlast] at hread
    cases hread
  · intro h last hquiet
    rw [session_concat]
    exact ((watched_session hjson h).afterPoll last).2 (hquiet 0)

end Sessions

/-! ## Two sessions of the app -/

/-- An edit, stamped later than all before it. -/
def laterEdit (text : String) : Edit Nat where
  text := text
  mtime used := used.sum + 1
  fresh _ h := Nat.not_succ_le_self _ (List.le_sum_of_mem h)

/-- An edit that comes with one step of the program. -/
def editAt (n : Nat) (text : String) : Nat → Moment Nat := fun i ↦
  ⟨if i = n then [laterEdit text] else [], i⟩

/-- An edit between the look at the modification time and the read is not lost. -/
theorem noEditLost_between : NoEditLost plainGlaze appConfigType ⟨0, appDefaults⟩
    (some ("\x7b\x7d", 1)) (editAt 2 "\x7b\"tick_log_interval\":60\x7d") [] := by
  refine (noEditLost_iff _ _ _ ?_ _ _ _).mpr fun h ↦ ?_
  · exact serializable_appDefaults.written plainGlaze_lawful
  · cases h.absent

/-- An editor saves the new file when it has just been provisioned.  The edit is there
under the modification time that is recorded, and is not read. -/
theorem savedWhileProvisioning_unread :
    let x := session plainGlaze appConfigType ⟨0, appDefaults⟩ none
      (editAt 3 "\x7b\"tick_log_interval\":60\x7d") []
    x.2.file = some ("\x7b\"tick_log_interval\":60\x7d", x.1.lastSeenMtime) ∧
      ¬ NoEditLost plainGlaze appConfigType ⟨0, appDefaults⟩ none
        (editAt 3 "\x7b\"tick_log_interval\":60\x7d") [] := by
  have hjson := serializable_appDefaults.written plainGlaze_lawful
  refine ⟨?_, fun h ↦ ?_⟩
  · obtain ⟨hfile, hmtime⟩ := @afterLoad_of_absent Nat plainGlaze appConfigType ⟨0, appDefaults⟩
      (.found none) (editAt 3 "\x7b\"tick_log_interval\":60\x7d") hjson rfl
    obtain ⟨m, hm⟩ : ∃ m, (session plainGlaze appConfigType ⟨0, appDefaults⟩ none
        (editAt 3 "\x7b\"tick_log_interval\":60\x7d") []).2.file =
          some ("\x7b\"tick_log_interval\":60\x7d", m) := ⟨_, congrArg EditedFile.file hfile⟩
    rw [EditedFile.mtime] at hmtime
    exact hm.trans (congrArg _ (Prod.ext rfl (Option.some.inj ((congrArg _ hm).symm.trans hmtime))))
  · have hmasked : Masked none (editAt 3 "\x7b\"tick_log_interval\":60\x7d")
        [fun _ ↦ ⟨[], 0⟩] :=
      ⟨rfl, rfl, .inr (List.cons_ne_nil _ _), List.forall_mem_singleton.mpr rfl⟩
    have hread := h (fun _ ↦ ⟨[], 0⟩) fun _ ↦ rfl
    rw [List.nil_append, unread_of_masked hjson hmasked] at hread
    cases hread

end Konative.App.Config
