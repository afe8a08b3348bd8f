import Konative.Lib.Lts
import Konative.Ecs.SnapshotWrite

/-!
# The state file under concurrent writers, readers and kills

Any number of `write_snapshot_bytes_file` calls on one path, whose temporary
files differ while they overlap, step in any order with each other and with
readers that open the path and read it in chunks.  The process may be killed at
any point: its unfinished calls are gone and their temporary files stay behind,
to be truncated or left by whatever comes later.

What is proved is that the path is always linked to a complete file: the one that
was there to begin with, or the image of a call whose rename succeeded; that a
reader never sees anything else, however its reads interleave with renames; and
that the renames and the calls that returned `ok` are the same calls.
-/

namespace Konative.Ecs

open FileSystem

/-- A reader that has the state file open. -/
structure Reader where
  inode : Nat
  /-- What it has read so far. -/
  seen : Bytes
  /-- A read has returned no bytes. -/
  eof : Bool

/-- A rename that happened: the call that made it, and what a reader opening the
state file in the same instant would have found. -/
structure Renamed where
  caller : Nat
  call : WriteCall
  found : Option Bytes

/-- The file system, the calls and readers on one path, and the history of renames. -/
structure StateFile where
  fs : FileSystem String
  /-- The calls made so far that were not killed. -/
  calls : Nat → Option (WriteCall × WritePc)
  readers : Nat → Option Reader
  /-- The renames so far, the latest first. -/
  history : List Renamed

namespace StateFile

/-- A kill leaves of the calls those that had returned. -/
def survivors (calls : Nat → Option (WriteCall × WritePc)) (i : Nat) :
    Option (WriteCall × WritePc) :=
  (calls i).filter fun x ↦ x.2.Finished

/-- One step of the writers, the readers or the operating system. -/
inductive Step (path : String) : StateFile → Unit → StateFile → Prop
  /-- A new call.  Its suffix is none of those in use. -/
  | call (s : StateFile) (i : Nat) (c : WriteCall) (hfree : s.calls i = none)
      (hdistinct : ∀ j c' pc', s.calls j = some (c', pc') → ¬ pc'.Finished →
        c'.uniqueSuffix ≠ c.uniqueSuffix) :
      Step path s () { s with calls := Function.update s.calls i (some (c, .opening)) }
  /-- A step of a call inside its own temporary file. -/
  | internal (s : StateFile) (i : Nat) (c : WriteCall) (pc pc' : WritePc)
      (fs' : FileSystem String) (hi : s.calls i = some (c, pc))
      (hstep : WriteStep path c s.fs pc .internal fs' pc') :
      Step path s ()
        { s with fs := fs', calls := Function.update s.calls i (some (c, pc')) }
  /-- A rename into place. -/
  | renamed (s : StateFile) (i : Nat) (c : WriteCall) (pc pc' : WritePc)
      (fs' : FileSystem String) (hi : s.calls i = some (c, pc))
      (hstep : WriteStep path c s.fs pc .renamed fs' pc') :
      Step path s ()
        { s with
          fs := fs'
          calls := Function.update s.calls i (some (c, pc'))
          history := ⟨i, c, fs'.content path⟩ :: s.history }
  /-- The process is killed. -/
  | kill (s : StateFile) : Step path s () { s with calls := survivors s.calls }
  /-- A reader opens the state file. -/
  | openRead (s : StateFile) (r inode : Nat) (hopen : s.fs.entry path = some inode) :
      Step path s () { s with readers := Function.update s.readers r (some ⟨inode, [], false⟩) }
  /-- A reader reads on; it is at the end when nothing came. -/
  | read (s : StateFile) (r k : Nat) (rd : Reader) (hr : s.readers r = some rd) :
      Step path s ()
        { s with
          readers := Function.update s.readers r (some
            { rd with
              seen := rd.seen ++ ((s.fs.data rd.inode).drop rd.seen.length).take k
              eof := rd.eof || (s.fs.data rd.inode).length ≤ rd.seen.length }) }

/-- The system over one path, from any file system with no call under way. -/
def system (path : String) (fs₀ : FileSystem String) : Lts StateFile Unit where
  init s := s = ⟨fs₀, fun _ ↦ none, fun _ ↦ none, []⟩
  step := Step path

/-! ## The invariant -/

/-- A content the state file may have: the initial one, or a renamed image. -/
def Whole (path : String) (fs₀ : FileSystem String) (history : List Renamed)
    (d : Option Bytes) : Prop :=
  d = fs₀.content path ∨ ∃ r ∈ history, d = some r.call.image

theorem Whole.cons {path : String} {fs₀ : FileSystem String} {history : List Renamed}
    {d : Option Bytes} (h : Whole path fs₀ history d) (r : Renamed) :
    Whole path fs₀ (r :: history) d := by
  rcases h with h | ⟨r', hr', h⟩
  · exact .inl h
  · exact .inr ⟨r', List.mem_cons_of_mem _ hr', h⟩

/-- A reader holds an inode nobody will write to again, whose bytes are whole. -/
structure ReaderOk (path : String) (fs₀ fs : FileSystem String) (history : List Renamed)
    (rd : Reader) : Prop where
  lt : rd.inode < fs.fresh
  link : ∀ {n}, fs.entry n = some rd.inode → n = path
  whole : Whole path fs₀ history (some (fs.data rd.inode))
  seen : rd.seen <+: fs.data rd.inode
  eof : rd.eof = true → rd.seen = fs.data rd.inode

/-- The invariant of the system. -/
structure Inv (path : String) (fs₀ : FileSystem String) (s : StateFile) : Prop where
  content : Whole path fs₀ s.history (s.fs.content path)
  tracks : ∀ {i c pc}, s.calls i = some (c, pc) → Tracks path c s.fs pc
  distinct : ∀ {i j c c' pc pc'}, s.calls i = some (c, pc) → s.calls j = some (c', pc') →
    ¬ pc.Finished → ¬ pc'.Finished → c.uniqueSuffix = c'.uniqueSuffix → i = j
  readers : ∀ {r rd}, s.readers r = some rd → ReaderOk path fs₀ s.fs s.history rd
  returned : ∀ {i c n}, s.calls i = some (c, .returned (.ok n)) →
    n = c.bytes.length ∧ ∃ r ∈ s.history, r.caller = i ∧ r.call = c
  history : ∀ r ∈ s.history, r.found = some r.call.image ∧
    s.calls r.caller = some (r.call, .returned (.ok r.call.bytes.length))

variable {path : String} {fs₀ : FileSystem String} {s s' : StateFile}

theorem inv_init : Inv path fs₀ ⟨fs₀, fun _ ↦ none, fun _ ↦ none, []⟩ where
  content := .inl rfl
  tracks h := nomatch h
  distinct h := nomatch h
  readers h := nomatch h
  returned h := nomatch h
  history _ h := nomatch h

/-- What a file system step of a call does to the other parties: it leaves every
file but the call's own two, and it gives no old inode a name but the state
file's. -/
private theorem write_frame {i : Nat} {c : WriteCall} {pc pc' : WritePc} {ℓ : WriteLabel}
    {fs' : FileSystem String} (hs : Inv path fs₀ s) (hi : s.calls i = some (c, pc))
    (hstep : WriteStep path c s.fs pc ℓ fs' pc') :
    (∀ {j c' pc''}, j ≠ i → s.calls j = some (c', pc'') → Tracks path c' fs' pc'') ∧
      (∀ {j n}, j < s.fs.fresh → (∀ {m}, s.fs.entry m = some j → m = path) →
        fs'.data j = s.fs.data j ∧ (fs'.entry n = some j → n = path)) ∧
      s.fs.fresh ≤ fs'.fresh := by
  have ht := hs.tracks hi
  have hne : ∀ {j c' pc''}, j ≠ i → s.calls j = some (c', pc'') → ¬ pc''.Finished →
      tempPath path c'.uniqueSuffix ≠ tempPath path c.uniqueSuffix := fun hji hj hpc he ↦
    hji (hs.distinct hj hi hpc hstep.not_finished (tempPath_injective path he))
  refine ⟨?_, ?_, ?_⟩
  · intro j c' pc'' hji hj
    by_cases hpc : pc''.Finished
    · cases pc'' with
      | returned _ => trivial
      | opening | writing | closing | movingIntoPlace | removing => exact hpc.elim
    · exact (hs.tracks hj).frame (hstep.sameFile ht (hne hji hj hpc)
      (tempPath_ne path c'.uniqueSuffix))
  · intro j n hlt hlink
    cases ℓ with
    | internal =>
        have hc := hstep.changesOnly ht
        refine ⟨hc.data hlt fun he ↦ tempPath_ne _ _ (hlink he), fun hn ↦ ?_⟩
        by_cases hnt : n = tempPath path c.uniqueSuffix
        · subst hnt; exact hlink (hc.link hn hlt)
        · exact hlink ((hc.entry hnt).symm.trans hn)
    | renamed =>
        have hr := (hstep.renamed_spec ht).1
        obtain ⟨_, -, -, hd, -⟩ := rename_eq_some hr
        exact ⟨by rw [hd], fun hn ↦ (rename_link hr hn).elim id hlink⟩
  · cases ℓ with
    | internal => exact (hstep.changesOnly ht).fresh_le
    | renamed =>
        obtain ⟨_, -, -, -, hf⟩ := rename_eq_some (hstep.renamed_spec ht).1
        exact Nat.le_of_eq hf.symm

/-- The invariant across a file system step of a call, for a history that grew. -/
private theorem inv_write {i : Nat} {c : WriteCall} {pc pc' : WritePc} {ℓ : WriteLabel}
    {fs' : FileSystem String} {history' : List Renamed} (hs : Inv path fs₀ s)
    (hi : s.calls i = some (c, pc)) (hstep : WriteStep path c s.fs pc ℓ fs' pc')
    (hgrow : ∀ {d}, Whole path fs₀ s.history d → Whole path fs₀ history' d)
    (hcontent : Whole path fs₀ history' (fs'.content path))
    (hreturned : ∀ {j c' n},
      Function.update s.calls i (some (c, pc')) j = some (c', .returned (.ok n)) →
        n = c'.bytes.length ∧ ∃ r ∈ history', r.caller = j ∧ r.call = c')
    (hhistory : ∀ r ∈ history', r.found = some r.call.image ∧
      Function.update s.calls i (some (c, pc')) r.caller =
        some (r.call, .returned (.ok r.call.bytes.length))) :
    Inv path fs₀
      { s with
        fs := fs', calls := Function.update s.calls i (some (c, pc')), history := history' } := by
  obtain ⟨hothers, hinodes, hfresh⟩ := write_frame hs hi hstep
  refine ⟨hcontent, fun {j c' pc''} hj ↦ ?_, fun {j k c₁ c₂ pc₁ pc₂} hj hk h₁ h₂ he ↦ ?_,
    fun {r rd} hr ↦ ?_, hreturned, hhistory⟩
  · rcases Lts.update_eq_some hj with ⟨rfl, hx⟩ | ⟨hji, hj⟩
    · obtain ⟨rfl, rfl⟩ := Prod.mk.inj hx
      exact hstep.tracks (hs.tracks hi)
    · exact hothers hji hj
  · -- a call keeps its suffix, and one that takes a step had not finished
    have hold : ∀ {j c₁ pc₁}, Function.update s.calls i (some (c, pc')) j = some (c₁, pc₁) →
        ¬ pc₁.Finished → ∃ pc₂, s.calls j = some (c₁, pc₂) ∧ ¬ pc₂.Finished := by
      intro j c₁ pc₁ hj hpc
      rcases Lts.update_eq_some hj with ⟨rfl, hx⟩ | ⟨hji, hj⟩
      · obtain ⟨rfl, -⟩ := Prod.mk.inj hx
        exact ⟨pc, hi, hstep.not_finished⟩
      · exact ⟨pc₁, hj, hpc⟩
    obtain ⟨_, hj', h₁'⟩ := hold hj h₁
    obtain ⟨_, hk', h₂'⟩ := hold hk h₂
    exact hs.distinct hj' hk' h₁' h₂' he
  · have ho := hs.readers hr
    have hd := (hinodes (n := path) ho.lt ho.link).1
    refine ⟨Nat.lt_of_lt_of_le ho.lt hfresh, fun hn ↦ (hinodes ho.lt ho.link).2 hn, ?_, ?_, ?_⟩
    · change Whole path fs₀ history' (some (fs'.data rd.inode))
      rw [hd]; exact hgrow ho.whole
    · change rd.seen <+: fs'.data rd.inode
      rw [hd]; exact ho.seen
    · change rd.eof = true → rd.seen = fs'.data rd.inode
      rw [hd]; exact ho.eof

theorem survivors_eq_some {calls : Nat → Option (WriteCall × WritePc)} {i : Nat}
    {x : WriteCall × WritePc} :
    survivors calls i = some x ↔ calls i = some x ∧ x.2.Finished := by
  simp [survivors, Option.filter_eq_some_iff]

/-- A call that has not returned has renamed nothing. -/
private theorem Inv.caller_ne {i : Nat} {c : WriteCall} {pc : WritePc} (hs : Inv path fs₀ s)
    (hi : s.calls i = some (c, pc)) (hpc : ¬ pc.Finished) : ∀ r ∈ s.history, r.caller ≠ i := by
  intro r hr he
  obtain ⟨-, hc⟩ := hs.history r hr
  rw [he, hi] at hc
  obtain ⟨-, rfl⟩ := Prod.mk.inj (Option.some.inj hc)
  exact hpc trivial

/-- A new call has done nothing yet, and no rename is its own. -/
private theorem Inv.call {i : Nat} {c : WriteCall} (hs : Inv path fs₀ s)
    (hfree : s.calls i = none)
    (hdistinct : ∀ j c' pc', s.calls j = some (c', pc') → ¬ pc'.Finished →
      c'.uniqueSuffix ≠ c.uniqueSuffix) :
    Inv path fs₀ { s with calls := Function.update s.calls i (some (c, .opening)) } := by
  refine ⟨hs.content, fun {j c' pc} hj ↦ ?_, fun {j k c₁ c₂ pc₁ pc₂} hj hk h₁ h₂ he ↦ ?_,
    hs.readers, fun {j c' n} hj ↦ ?_, fun r hr ↦ ?_⟩
  · rcases Lts.update_eq_some hj with ⟨rfl, hx⟩ | ⟨-, hj⟩
    · obtain ⟨rfl, rfl⟩ := Prod.mk.inj hx
      trivial
    · exact hs.tracks hj
  · rcases Lts.update_eq_some hj with ⟨rfl, hx⟩ | ⟨-, hj'⟩ <;>
      rcases Lts.update_eq_some hk with ⟨rfl, hy⟩ | ⟨-, hk'⟩
    · rfl
    · obtain ⟨rfl, rfl⟩ := Prod.mk.inj hx
      exact absurd he.symm (hdistinct _ _ _ hk' h₂)
    · obtain ⟨rfl, rfl⟩ := Prod.mk.inj hy
      exact absurd he (hdistinct _ _ _ hj' h₁)
    · exact hs.distinct hj' hk' h₁ h₂ he
  · rcases Lts.update_eq_some hj with ⟨rfl, hx⟩ | ⟨-, hj⟩
    · cases (Prod.mk.inj hx).2
    · exact hs.returned hj
  · obtain ⟨hf, hc⟩ := hs.history r hr
    refine ⟨hf, ?_⟩
    have hne : r.caller ≠ i := fun he ↦ by rw [he, hfree] at hc; cases hc
    exact Lts.update_eq_some_of_ne hne hc

/-- A reader that reads on has seen more of the same bytes, and all of them at the end. -/
private theorem ReaderOk.read {fs : FileSystem String} {history : List Renamed} {rd : Reader}
    (h : ReaderOk path fs₀ fs history rd) (k : Nat) :
    ReaderOk path fs₀ fs history
      { rd with
        seen := rd.seen ++ ((fs.data rd.inode).drop rd.seen.length).take k
        eof := rd.eof || (fs.data rd.inode).length ≤ rd.seen.length } := by
  obtain ⟨hlt, hlink, hwhole, ⟨tail, htail⟩, heof⟩ := h
  have hdrop : (fs.data rd.inode).drop rd.seen.length = tail := by
    rw [← htail, List.drop_left]
  refine ⟨hlt, hlink, hwhole, ⟨tail.drop k, ?_⟩, fun he ↦ ?_⟩
  · change rd.seen ++ ((fs.data rd.inode).drop rd.seen.length).take k ++ tail.drop k =
      fs.data rd.inode
    rw [hdrop, List.append_assoc, List.take_append_drop, htail]
  · change rd.seen ++ ((fs.data rd.inode).drop rd.seen.length).take k = fs.data rd.inode
    have hnil : tail = [] := by
      rcases Bool.or_eq_true_iff.mp he with he | he
      · rw [← htail] at heof
        exact List.append_cancel_left ((List.append_nil _).trans (heof he)) |>.symm
      · have hle := of_decide_eq_true he
        rw [← htail, List.length_append] at hle
        exact List.length_eq_zero_iff.mp (by omega)
    rw [hdrop, hnil, List.take_nil, List.append_nil, ← htail, hnil, List.append_nil]

/-- Every step keeps the invariant. -/
theorem Step.inv (h : Step path s () s') (hs : Inv path fs₀ s) : Inv path fs₀ s' := by
  cases h with
  | call i c hfree hdistinct => exact hs.call hfree hdistinct
  | internal i c pc pc' fs' hi hstep =>
      have hne := hs.caller_ne hi hstep.not_finished
      refine inv_write hs hi hstep id ?_ (fun {j c' n} hj ↦ ?_) fun r hr ↦ ?_
      · rw [hstep.content_path (hs.tracks hi), if_neg nofun]
        exact hs.content
      · rcases Lts.update_eq_some hj with ⟨rfl, hx⟩ | ⟨-, hj⟩
        · obtain ⟨rfl, rfl⟩ := Prod.mk.inj hx
          cases hstep.eq_renamed_of_ok.1
        · exact hs.returned hj
      · obtain ⟨hf, hc⟩ := hs.history r hr
        exact ⟨hf, Lts.update_eq_some_of_ne (hne r hr) hc⟩
  | renamed i c pc pc' fs' hi hstep =>
      obtain ⟨-, hcontent, rfl⟩ := hstep.renamed_spec (hs.tracks hi)
      have hne := hs.caller_ne hi hstep.not_finished
      refine inv_write hs hi hstep (fun h ↦ h.cons _) ?_ (fun {j c' n} hj ↦ ?_) fun r hr ↦ ?_
      · exact .inr ⟨_, List.mem_cons_self, hcontent⟩
      · rcases Lts.update_eq_some hj with ⟨rfl, hx⟩ | ⟨-, hj⟩
        · obtain ⟨rfl, hn⟩ := Prod.mk.inj hx
          cases hn
          exact ⟨rfl, _, List.mem_cons_self, rfl, rfl⟩
        · obtain ⟨hn, r, hr, hrest⟩ := hs.returned hj
          exact ⟨hn, r, List.mem_cons_of_mem _ hr, hrest⟩
      · rcases List.mem_cons.mp hr with rfl | hr
        · exact ⟨hcontent, Function.update_self ..⟩
        · obtain ⟨hf, hc⟩ := hs.history r hr
          exact ⟨hf, Lts.update_eq_some_of_ne (hne r hr) hc⟩
  | kill =>
      refine ⟨hs.content, fun hj ↦ hs.tracks (survivors_eq_some.mp hj).1, fun hj hk ↦ ?_,
        hs.readers, fun hj ↦ hs.returned (survivors_eq_some.mp hj).1, fun r hr ↦ ?_⟩
      · exact hs.distinct (survivors_eq_some.mp hj).1 (survivors_eq_some.mp hk).1
      · obtain ⟨hf, hc⟩ := hs.history r hr
        exact ⟨hf, survivors_eq_some.mpr ⟨hc, trivial⟩⟩
  | openRead r inode hopen =>
      refine ⟨hs.content, hs.tracks, hs.distinct, fun {r' rd} hr ↦ ?_, hs.returned, hs.history⟩
      rcases Lts.update_eq_some hr with ⟨rfl, rfl⟩ | ⟨-, hr⟩
      · refine ⟨s.fs.entry_lt hopen, fun hn ↦ s.fs.entry_inj hn hopen, ?_, List.nil_prefix, nofun⟩
        rw [← content_eq_some hopen]
        exact hs.content
      · exact hs.readers hr
  | read r k rd hr₀ =>
      refine ⟨hs.content, hs.tracks, hs.distinct, fun {r' rd'} hr ↦ ?_, hs.returned, hs.history⟩
      rcases Lts.update_eq_some hr with ⟨rfl, rfl⟩ | ⟨-, hr⟩
      · exact (hs.readers hr₀).read k
      · exact hs.readers hr

theorem inv_of_reachable (h : (system path fs₀).Reachable s) : Inv path fs₀ s :=
  h.invariant (fun {s} (hs : s = _) ↦ by rw [hs]; exact inv_init) Step.inv

/-! ## Atomic visibility -/

/-- In every reachable state: the state file is what it was initially or the
complete image of a renamed call; every reader has a prefix of such a file, and
all of it once it has reached the end; the state file held the image of every
renamed call at the instant of its rename; and the renamed calls are exactly the
calls that returned `ok`. -/
theorem atomic_visibility (path : String) (fs₀ : FileSystem String) (s : StateFile)
    (h : (system path fs₀).Reachable s) :
    Whole path fs₀ s.history (s.fs.content path) ∧
      (∀ r rd, s.readers r = some rd → ∃ d, Whole path fs₀ s.history (some d) ∧
        rd.seen <+: d ∧ (rd.eof = true → rd.seen = d)) ∧
      (∀ r ∈ s.history, r.found = some r.call.image ∧
        s.calls r.caller = some (r.call, .returned (.ok r.call.bytes.length))) ∧
      (∀ i c n, s.calls i = some (c, .returned (.ok n)) →
        n = c.bytes.length ∧ ∃ r ∈ s.history, r.caller = i ∧ r.call = c) := by
  have hs := inv_of_reachable h
  refine ⟨hs.content, fun r rd hr ↦ ?_, hs.history, fun i c n hi ↦ hs.returned hi⟩
  exact ⟨_, (hs.readers hr).whole, (hs.readers hr).seen, (hs.readers hr).eof⟩

/-- A call may run for as long as it likes before anything else steps. -/
theorem reachable_of_run {i : Nat} {c : WriteCall} {fs fs' : FileSystem String} {pc pc' : WritePc}
    {w : List WriteLabel} (hr : (writeSystem path c).Run (fs, pc) w (fs', pc')) {s : StateFile}
    (h : (system path fs₀).Reachable s) (hfs : s.fs = fs) (hi : s.calls i = some (c, pc)) :
    ∃ s', (system path fs₀).Reachable s' ∧ s'.fs = fs' ∧ s'.calls i = some (c, pc') ∧
      ∀ j, j ≠ i → s'.calls j = s.calls j := by
  generalize hx : (fs, pc) = x at hr
  generalize hy : (fs', pc') = y at hr
  induction hr generalizing fs pc s with
  | nil _ =>
      obtain ⟨rfl, rfl⟩ := Prod.mk.inj (hx.trans hy.symm)
      exact ⟨s, h, hfs, hi, fun _ _ ↦ rfl⟩
  | @cons x x' y ℓ w hstep _ ih =>
      subst hx hfs
      have hthen : ∀ {t : StateFile}, (system path fs₀).Reachable t → t.fs = x'.1 →
          t.calls = Function.update s.calls i (some (c, x'.2)) →
          ∃ s', (system path fs₀).Reachable s' ∧ s'.fs = fs' ∧ s'.calls i = some (c, pc') ∧
            ∀ j, j ≠ i → s'.calls j = s.calls j := by
        intro t ht htfs hcalls
        obtain ⟨s', h', hfs', hi', hothers⟩ :=
          ih ht htfs (by rw [hcalls, Function.update_self]) rfl hy
        refine ⟨s', h', hfs', hi', fun j hj ↦ ?_⟩
        rw [hothers j hj, hcalls, Function.update_of_ne hj]
      cases ℓ with
      | internal => exact hthen (h.step (.internal s i c pc x'.2 x'.1 hi hstep)) rfl rfl
      | renamed => exact hthen (h.step (.renamed s i c pc x'.2 x'.1 hi hstep)) rfl rfl

/-- From any file system, a state is reachable in which one call was killed with its
temporary file open, and another returned `ok` meanwhile. -/
theorem exists_reachable_killed (path : String) (fs₀ : FileSystem String) (c c' : WriteCall)
    (hne : c.uniqueSuffix ≠ c'.uniqueSuffix) :
    ∃ s, (system path fs₀).Reachable s ∧ s.calls 0 = none ∧
      s.calls 1 = some (c', .returned (.ok c'.bytes.length)) := by
  have h₀ : (system path fs₀).Reachable _ := .of_init rfl
  have hopened := (h₀.step (.call _ 0 c rfl fun _ _ _ hj ↦ nomatch hj)).step
    (.internal _ 0 c _ _ _ rfl (.opened fs₀))
  have hboth := hopened.step (.call _ 1 c' rfl (by
    rintro (_ | j) d pc ⟨⟩ -
    exact hne))
  obtain ⟨fs', w, hr⟩ := exists_run_ok path c' (fs₀.openTrunc (tempPath path c.uniqueSuffix)).1
  obtain ⟨s, hs, -, hok, hothers⟩ := reachable_of_run hr hboth rfl (Function.update_self ..)
  refine ⟨_, hs.step (.kill s), ?_, ?_⟩
  · show survivors s.calls 0 = none
    rw [survivors, hothers 0 (by decide)]
    rfl
  · show survivors s.calls 1 = _
    rw [survivors, hok]
    rfl

/-- Of two overlapping writes over an absent file one was killed: the state file is what the
other wrote or nothing, and no rename is of the one that was killed. -/
theorem atomic_visibility_overlap : ∃ s : StateFile,
    s.calls 0 = none ∧ s.calls 1 = some (⟨[1, 2, 3], 121, 2⟩, .returned (.ok 3)) ∧
      Whole "state.bin" .empty s.history (s.fs.content "state.bin") ∧
      (∃ r ∈ s.history, r.caller = 1 ∧ r.call = ⟨[1, 2, 3], 121, 2⟩) ∧
      ∀ r ∈ s.history, r.caller ≠ 0 := by
  obtain ⟨s, h, hkilled, hok⟩ := exists_reachable_killed "state.bin" .empty
    ⟨[4, 5], 120, 2⟩ ⟨[1, 2, 3], 121, 2⟩ (by decide)
  obtain ⟨hw, -, hhistory, hr⟩ := atomic_visibility "state.bin" .empty s h
  refine ⟨s, hkilled, hok, hw, (hr 1 _ _ hok).2, fun r hr' hcaller ↦ ?_⟩
  have hcall := (hhistory r hr').2
  rw [hcaller, hkilled] at hcall
  cases hcall

end StateFile

end Konative.Ecs
