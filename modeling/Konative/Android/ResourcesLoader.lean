import Mathlib.Data.List.Nodup
import Mathlib.Logic.Function.Basic

/-!
# `tryInstallGeneralResourcesLoader`

The function attaches a loader with the embedded resource table to the `Resources` of an
Activity, or leaves the work to the fallback.  Each of the Android calls it makes may raise an
exception, in any call of the function; those that attach, detach and close may do so before or
after they took effect.

Where the exception of `Os.close` or of `removeLoaders` comes after `addLoaders`, the function
returns `false` and the loader stays; and the `ParcelFileDescriptor` is never closed.
-/

namespace Konative.Android.ResourcesLoader

universe u

/-! ## The calls and their faults -/

/-- How a call that changes something ends. -/
inductive Ends
  | returns
  /-- It raises an exception, and nothing was changed. -/
  | raises
  /-- It raises an exception after the change. -/
  | raisesAfter
deriving DecidableEq

/-- Whether the change took place. -/
def Ends.takesEffect : Ends → Bool
  | returns | raisesAfter => true
  | raises => false

/-- Which of the Android calls raise an exception in one call of the function. -/
structure Faults where
  memfdCreate : Bool
  write : Bool
  lseek : Bool
  dup : Bool
  loadFromTable : Bool
  addProvider : Bool
  addLoaders : Ends
  close : Ends
  getString : Bool
  removeLoaders : Ends

/-- A `ByteBuffer`: its bytes, and the part that is still to be read. -/
structure ByteBuffer where
  bytes : List UInt8
  position : Nat
  limit : Nat

/-- `remaining()`. -/
def ByteBuffer.remaining (b : ByteBuffer) : Nat := b.limit - b.position

/-- `get(bytes)` for an array of length `n`: what is read, and the buffer after it. -/
def ByteBuffer.get (b : ByteBuffer) (n : Nat) : List UInt8 × ByteBuffer :=
  ((b.bytes.drop b.position).take n, { b with position := b.position + n })

/-- The bytes between the position and the limit. -/
def ByteBuffer.rest (b : ByteBuffer) : List UInt8 := (b.bytes.drop b.position).take b.remaining

/-- What the function acts on, for the Activities `A`. -/
structure World (A : Type u) where
  /-- The loaders attached to the `Resources` of each Activity. -/
  loaders : A → List Nat
  /-- The next `ResourcesLoader`. -/
  nextLoader : Nat
  openFds : List Nat
  /-- The next file descriptor. -/
  nextFd : Nat
  /-- `resourcesArscBuffer`. -/
  buffer : Option ByteBuffer
  /-- What the calls so far have written to their files, the last one first. -/
  written : List (List UInt8)

/-- What was given out is below what comes next. -/
structure World.Valid {A : Type u} (w : World A) : Prop where
  loaders_lt : ∀ a, ∀ l ∈ w.loaders a, l < w.nextLoader
  openFds_lt : ∀ fd ∈ w.openFds, fd < w.nextFd

/-! ## The function -/

variable {A : Type u} {α β : Type}

/-- A computation that may raise an exception; what it did stays done. -/
abbrev Throwing (A : Type u) (α : Type) : Type u := World A → Option α × World A

namespace Throwing

/-- First one, then the other. -/
def andThen (m : Throwing A α) (f : α → Throwing A β) : Throwing A β := fun w ↦
  match m w with
  | (some a, w) => f a w
  | (none, w) => (none, w)

/-- `try { m } finally { fin }`: an exception of either is one of both. -/
def withFinally (m : Throwing A α) (fin : Throwing A Unit) : Throwing A α := fun w ↦
  match m w with
  | (some a, w) =>
      match fin w with
      | (some _, w) => (some a, w)
      | (none, w) => (none, w)
  | (none, w) => (none, (fin w).2)

/-- A call that changes nothing that is kept track of. -/
def call (raises : Bool) : Throwing A Unit := fun w ↦ if raises then (none, w) else (some (), w)

/-- A call that makes the change `f`. -/
def change (e : Ends) (f : World A → World A) : Throwing A Unit := fun w ↦
  match e with
  | .returns => (some (), f w)
  | .raises => (none, w)
  | .raisesAfter => (none, f w)

/-- A call that opens a file descriptor. -/
def openFd (raises : Bool) : Throwing A Nat := fun w ↦
  if raises then (none, w)
  else (some w.nextFd, { w with openFds := w.nextFd :: w.openFds, nextFd := w.nextFd + 1 })

end Throwing

open Throwing

variable [DecidableEq A]

/-- `Os.close(fd)`. -/
def close (e : Ends) (fd : Nat) : Throwing A Unit :=
  change e fun w ↦ { w with openFds := w.openFds.filter (· ≠ fd) }

/-- `activity.resources.addLoaders(loader)`. -/
def addLoaders (e : Ends) (activity : A) (loader : Nat) : Throwing A Unit :=
  change e fun w ↦ { w with
    loaders := Function.update w.loaders activity (w.loaders activity ++ [loader]) }

/-- `activity.resources.removeLoaders(loader)`. -/
def removeLoaders (e : Ends) (activity : A) (loader : Nat) : Throwing A Unit :=
  change e fun w ↦ { w with
    loaders := Function.update w.loaders activity ((w.loaders activity).filter (· ≠ loader)) }

/-- `ResourcesLoader()`. -/
def newLoader : Throwing A Nat := fun w ↦
  (some w.nextLoader, { w with nextLoader := w.nextLoader + 1 })

/-- `Os.write(fd, bytes, 0, bytes.size)`. -/
def write (raises : Bool) (bytes : List UInt8) : Throwing A Unit := fun w ↦
  if raises then (none, w) else (some (), { w with written := bytes :: w.written })

/-- The body of the inner `try`. -/
def attach (f : Faults) (activity : A) (bytes : List UInt8) : Throwing A Nat :=
  (write f.write bytes).andThen fun _ ↦
  (call f.lseek).andThen fun _ ↦
  (openFd f.dup).andThen fun _ ↦
  (call f.loadFromTable).andThen fun _ ↦
  newLoader.andThen fun loader ↦
  (call f.addProvider).andThen fun _ ↦
  (addLoaders f.addLoaders activity loader).andThen fun _ w ↦ (some loader, w)

/-- The body of the outer `try`.  What is read is a `duplicate()` with a position of its own, so
the shared buffer stays as it is. -/
def install (f : Faults) (activity : A) (buffer : ByteBuffer) : Throwing A Bool :=
  let bytes := (buffer.get buffer.remaining).1
  (openFd f.memfdCreate).andThen fun fd ↦
  (withFinally (attach f activity bytes) (close f.close fd)).andThen fun loader ↦
  if f.getString then (removeLoaders f.removeLoaders activity loader).andThen fun _ w ↦
    (some false, w)
  else fun w ↦ (some true, w)

/-- `tryInstallGeneralResourcesLoader(activity, resourcesArscBuffer)`. -/
def tryInstallGeneralResourcesLoader (sdkInt : Nat) (f : Faults) (activity : A) (w : World A) :
    Bool × World A :=
  if sdkInt < 30 then (false, w)
  else
    match w.buffer with
    | none => (false, w)
    | some buffer =>
        match install f activity buffer w with
        | (some result, w) => (result, w)
        | (none, w) => (false, w)

/-! ## How far a call gets -/

namespace Faults

variable (f : Faults)

/-- `memfd_create` returns. -/
def opensMemfd : Bool := !f.memfdCreate

/-- So do `write` and `lseek` and `dup`. -/
def opensPfd : Bool := f.opensMemfd && !f.write && !f.lseek && !f.dup

/-- `addLoaders` is called. -/
def reachesAddLoaders : Bool := f.opensPfd && !f.loadFromTable && !f.addProvider

/-- The loader is attached. -/
def attaches : Bool := f.reachesAddLoaders && f.addLoaders.takesEffect

/-- The `try` with its `finally` returns. -/
def returnsLoader : Bool :=
  f.reachesAddLoaders && f.addLoaders = .returns && f.close = .returns

/-- The loader is removed again. -/
def detaches : Bool := f.returnsLoader && f.getString && f.removeLoaders.takesEffect

/-- The function returns `true`. -/
def succeeds : Bool := f.returnsLoader && !f.getString

/-- The `finally` leaves the first file open. -/
def leaksMemfd : Bool := f.opensMemfd && !f.close.takesEffect

end Faults

/-- What a call leaves. -/
def World.after (w : World A) (f : Faults) (activity : A) (bytes : List UInt8) : World A where
  loaders := if f.attaches && !f.detaches then
    Function.update w.loaders activity (w.loaders activity ++ [w.nextLoader]) else w.loaders
  nextLoader := if f.opensPfd && !f.loadFromTable then w.nextLoader + 1 else w.nextLoader
  openFds := (if f.opensPfd then [w.nextFd + 1] else []) ++
    (if f.leaksMemfd then [w.nextFd] else []) ++ w.openFds
  nextFd := w.nextFd + (if f.opensMemfd then 1 else 0) + (if f.opensPfd then 1 else 0)
  buffer := w.buffer
  written := if f.opensMemfd && !f.write then bytes :: w.written else w.written

/-! ## One call -/

section Call

variable {f : Faults} {activity : A} {bytes : List UInt8}

/-- Where the body of the inner `try` gets to. -/
theorem attach_eq (hf : f.memfdCreate = false) (w : World A) :
    attach f activity bytes w =
      (if f.reachesAddLoaders && f.addLoaders = .returns then some w.nextLoader else none,
        { w with
          loaders := if f.attaches then
            Function.update w.loaders activity (w.loaders activity ++ [w.nextLoader])
            else w.loaders
          nextLoader := if f.opensPfd && !f.loadFromTable then w.nextLoader + 1 else w.nextLoader
          openFds := if f.opensPfd then w.nextFd :: w.openFds else w.openFds
          nextFd := w.nextFd + if f.opensPfd then 1 else 0
          written := if f.write then w.written else bytes :: w.written }) := by
  rcases f with ⟨memfdCreate, write, lseek, dup, loadFromTable, addProvider, addLoaders, close,
    getString, removeLoaders⟩
  subst hf
  -- the calls in their order, each with the exception first
  cases write with
  | true => rfl
  | false =>
      cases lseek with
      | true => rfl
      | false =>
          cases dup with
          | true => rfl
          | false =>
              cases loadFromTable with
              | true => rfl
              | false =>
                  cases addProvider with
                  | true => rfl
                  | false => cases addLoaders <;> rfl

omit [DecidableEq A] in
/-- The `finally` closes the file, or at least tries to. -/
theorem withFinally_close (m : Throwing A Nat) (e : Ends) (fd : Nat) (w : World A) :
    withFinally m (close e fd) w =
      (if e = .returns then (m w).1 else none,
        { (m w).2 with openFds := if e.takesEffect then
          (m w).2.openFds.filter (· ≠ fd) else (m w).2.openFds }) := by
  unfold withFinally
  rcases m w with ⟨r, w'⟩
  cases r with
  | none => cases e <;> rfl
  | some a => cases e <;> rfl

omit [DecidableEq A] in
theorem World.Valid.filter_openFds {w : World A} (hw : w.Valid) :
    w.openFds.filter (· ≠ w.nextFd) = w.openFds := by
  rw [List.filter_eq_self]
  intro fd hfd
  exact decide_eq_true (Nat.ne_of_lt (hw.openFds_lt fd hfd))

omit [DecidableEq A] in
theorem World.Valid.filter_loaders {w : World A} (hw : w.Valid) (a : A) :
    (w.loaders a ++ [w.nextLoader]).filter (· ≠ w.nextLoader) = w.loaders a := by
  rw [List.filter_append, List.filter_eq_self.mpr]
  · simp
  · intro l hl
    exact decide_eq_true (Nat.ne_of_lt (hw.loaders_lt a l hl))

/-- What the `try` with its `finally` leaves. -/
def World.attached (w : World A) (f : Faults) (activity : A) (bytes : List UInt8) : World A :=
  { w.after f activity bytes with
    loaders := if f.attaches then
      Function.update w.loaders activity (w.loaders activity ++ [w.nextLoader]) else w.loaders }

theorem openFds_attached (activity : A) (bytes : List UInt8) {w : World A} (hw : w.Valid)
    (hf : f.memfdCreate = false) :
    (if f.close.takesEffect then
        (if f.opensPfd then (w.nextFd + 1) :: w.nextFd :: w.openFds
          else w.nextFd :: w.openFds).filter (· ≠ w.nextFd)
      else if f.opensPfd then (w.nextFd + 1) :: w.nextFd :: w.openFds
        else w.nextFd :: w.openFds) =
      (w.after f activity bytes).openFds := by
  have hleaks : f.leaksMemfd = !f.close.takesEffect := by
    rw [Faults.leaksMemfd, Faults.opensMemfd, hf]
    rfl
  rw [World.after, hleaks]
  cases f.close.takesEffect <;> cases f.opensPfd
  · rfl
  · rfl
  · simpa using hw.filter_openFds
  · simpa using hw.filter_openFds

theorem withFinally_attach {w : World A} (hw : w.Valid) (hf : f.memfdCreate = false) :
    withFinally (attach f activity bytes) (close f.close w.nextFd)
        { w with openFds := w.nextFd :: w.openFds, nextFd := w.nextFd + 1 } =
      (if f.returnsLoader then some w.nextLoader else none, w.attached f activity bytes) := by
  have hfds := openFds_attached activity bytes hw hf
  rw [withFinally_close, attach_eq hf]
  refine Prod.ext ?_ ?_
  · rw [Faults.returnsLoader]
    cases f.reachesAddLoaders <;> cases f.addLoaders <;> cases f.close <;> rfl
  · have hmemfd : f.opensMemfd = true := congrArg not hf
    rw [World.attached, World.mk.injEq]
    refine ⟨rfl, rfl, hfds, ?_, rfl, ?_⟩
    · rw [World.after, hmemfd]
      rfl
    · rw [World.after, hmemfd]
      cases f.write <;> rfl

/-- Where the loader is not removed again, this is what the call leaves. -/
theorem attached_of_not_detaches (h : f.detaches = false) (w : World A) :
    w.attached f activity bytes = w.after f activity bytes := by
  rw [World.attached, World.after, h, Bool.not_false, Bool.and_true]

/-- And where it is, it is what was there before. -/
theorem removeLoaders_attached {w : World A} (hw : w.Valid) (h : f.detaches = true) :
    { w.attached f activity bytes with
      loaders := Function.update (w.attached f activity bytes).loaders activity
        (((w.attached f activity bytes).loaders activity).filter (· ≠ w.nextLoader)) } =
      w.after f activity bytes := by
  have hattaches : f.attaches = true := by
    simp only [Faults.detaches, Faults.returnsLoader, Bool.and_eq_true, decide_eq_true_eq] at h
    rw [Faults.attaches, h.1.1.1.1, h.1.1.1.2]
    rfl
  have hloaders : (w.attached f activity bytes).loaders =
      Function.update w.loaders activity (w.loaders activity ++ [w.nextLoader]) := if_pos hattaches
  rw [hloaders, Function.update_self, hw.filter_loaders, Function.update_idem,
    Function.update_eq_self, World.attached, World.after, h, Bool.not_true, Bool.and_false]
  rfl

/-- After a failed lookup the call of `removeLoaders` leaves what the function leaves, whether it
raises an exception or not. -/
theorem removeLoaders_snd {w : World A} (hw : w.Valid) (hreturns : f.returnsLoader = true)
    (hget : f.getString = true) :
    (removeLoaders f.removeLoaders activity w.nextLoader (w.attached f activity bytes)).2 =
      w.after f activity bytes := by
  have hdetaches : f.detaches = f.removeLoaders.takesEffect := by
    rw [Faults.detaches, hreturns, hget]
    rfl
  cases hremove : f.removeLoaders with
  | returns =>
      rw [hremove] at hdetaches
      exact removeLoaders_attached hw hdetaches
  | raises =>
      rw [hremove] at hdetaches
      exact attached_of_not_detaches hdetaches w
  | raisesAfter =>
      rw [hremove] at hdetaches
      exact removeLoaders_attached hw hdetaches

theorem tryInstall_eq {sdkInt : Nat} (hsdk : 30 ≤ sdkInt) (f : Faults) (activity : A)
    {w : World A} (hw : w.Valid) {b : ByteBuffer} (hb : w.buffer = some b) :
    tryInstallGeneralResourcesLoader sdkInt f activity w =
      (f.succeeds, w.after f activity b.rest) := by
  rw [tryInstallGeneralResourcesLoader, if_neg (Nat.not_lt.mpr hsdk), hb]
  simp only [install]
  cases hmemfd : f.memfdCreate with
  | true =>
      have hopens : f.opensMemfd = false := congrArg not hmemfd
      simp [andThen, openFd, World.after, Faults.succeeds, Faults.returnsLoader, Faults.attaches,
        Faults.reachesAddLoaders, Faults.opensPfd, Faults.leaksMemfd, hopens]
  | false =>
      simp only [andThen, openFd, Bool.false_eq_true, if_false, withFinally_attach hw hmemfd]
      cases hreturns : f.returnsLoader with
      | false =>
          have hdetaches : f.detaches = false := by
            rw [Faults.detaches, hreturns]
            rfl
          rw [attached_of_not_detaches hdetaches, Faults.succeeds, hreturns]
          rfl
      | true =>
          cases hget : f.getString with
          | false =>
              have hdetaches : f.detaches = false := by
                rw [Faults.detaches, hreturns, hget]
                rfl
              rw [attached_of_not_detaches hdetaches, Faults.succeeds, hreturns, hget]
              rfl
          | true =>
              have hsucceeds : f.succeeds = false := by
                rw [Faults.succeeds, hreturns, hget]
                rfl
              rw [hsucceeds, ← removeLoaders_snd hw hreturns hget]
              cases f.removeLoaders with
              | returns => rfl
              | raises => rfl
              | raisesAfter => rfl

theorem loaders_after_of_attaches (h : (f.attaches && !f.detaches) = true) (w : World A) :
    (w.after f activity bytes).loaders =
      Function.update w.loaders activity (w.loaders activity ++ [w.nextLoader]) := if_pos h

theorem loaders_after_of_not (h : (f.attaches && !f.detaches) = false) (w : World A) :
    (w.after f activity bytes).loaders = w.loaders := if_neg (ne_true_of_eq_false h)

/-- A loader is made before it is attached. -/
theorem nextLoader_after (h : f.attaches = true) (w : World A) :
    (w.after f activity bytes).nextLoader = w.nextLoader + 1 := by
  simp only [Faults.attaches, Faults.reachesAddLoaders, Bool.and_eq_true] at h
  exact if_pos (Bool.and_eq_true _ _ ▸ h.1.1)

theorem nextLoader_le (w : World A) : w.nextLoader ≤ (w.after f activity bytes).nextLoader := by
  show w.nextLoader ≤ if _ then _ else _
  split
  · exact Nat.le_succ _
  · exact Nat.le_refl _

theorem loaders_lt_after {w : World A} (hw : w.Valid) (a : A) :
    ∀ l ∈ (w.after f activity bytes).loaders a, l < (w.after f activity bytes).nextLoader := by
  intro l hl
  cases hkept : f.attaches && !f.detaches with
  | false =>
      rw [loaders_after_of_not hkept] at hl
      exact Nat.lt_of_lt_of_le (hw.loaders_lt a l hl) (nextLoader_le w)
  | true =>
      rw [loaders_after_of_attaches hkept] at hl
      rw [nextLoader_after (Bool.and_eq_true _ _ ▸ hkept).1]
      by_cases ha : a = activity
      · subst ha
        rw [Function.update_self, List.mem_append, List.mem_singleton] at hl
        rcases hl with hl | rfl
        · exact Nat.lt_succ_of_lt (hw.loaders_lt a l hl)
        · exact Nat.lt_succ_self _
      · rw [Function.update_of_ne ha] at hl
        exact Nat.lt_succ_of_lt (hw.loaders_lt a l hl)

theorem mem_ite_singleton {b : Bool} {m n : Nat} :
    m ∈ (if b then [n] else []) ↔ b = true ∧ m = n := by
  cases b with
  | false => simp
  | true => simp

theorem mem_openFds_after {w : World A} {fd : Nat} :
    fd ∈ (w.after f activity bytes).openFds ↔ (f.opensPfd = true ∧ fd = w.nextFd + 1) ∨
      (f.leaksMemfd = true ∧ fd = w.nextFd) ∨ fd ∈ w.openFds := by
  rw [World.after, List.mem_append, List.mem_append, mem_ite_singleton, mem_ite_singleton,
    or_assoc]

theorem openFds_lt_after {w : World A} (hw : w.Valid) :
    ∀ fd ∈ (w.after f activity bytes).openFds, fd < (w.after f activity bytes).nextFd := by
  intro fd hfd
  show fd < w.nextFd + (if f.opensMemfd then 1 else 0) + (if f.opensPfd then 1 else 0)
  rcases mem_openFds_after.mp hfd with ⟨hpfd, rfl⟩ | ⟨hleaks, rfl⟩ | hold
  · have hmemfd : f.opensMemfd = true := by
      simp only [Faults.opensPfd, Bool.and_eq_true] at hpfd
      exact hpfd.1.1.1
    rw [if_pos hmemfd, if_pos hpfd]
    exact Nat.lt_succ_self _
  · have hmemfd : f.opensMemfd = true := by
      simp only [Faults.leaksMemfd, Bool.and_eq_true] at hleaks
      exact hleaks.1
    rw [if_pos hmemfd]
    exact Nat.lt_of_lt_of_le (Nat.lt_succ_self _) (Nat.le_add_right _ _)
  · have hlt := hw.openFds_lt fd hold
    omega

/-- What a call leaves keeps to what was given out. -/
theorem valid_after {w : World A} (hw : w.Valid) : (w.after f activity bytes).Valid := by
  constructor
  · exact loaders_lt_after hw
  · exact openFds_lt_after hw

end Call

/-! ## Any sequence of calls -/

/-- A call, with the faults it meets. -/
structure Call (A : Type u) where
  activity : A
  faults : Faults

/-- `P` holds of the world before, the call, its result and the world after, for every call. -/
def EveryCall (sdkInt : Nat) (P : World A → Call A → Bool → World A → Prop) :
    World A → List (Call A) → Prop
  | _, [] => True
  | w, c :: cs =>
      let (result, w') := tryInstallGeneralResourcesLoader sdkInt c.faults c.activity w
      P w c result w' ∧ EveryCall sdkInt P w' cs

/-- `true` leaves one new loader on the Activity, and `false` none. -/
structure EitherOr (w : World A) (c : Call A) (result : Bool) (w' : World A) : Prop where
  attached : result = true → ∃ l, (∀ a, l ∉ w.loaders a) ∧
    w'.loaders = Function.update w.loaders c.activity (w.loaders c.activity ++ [l])
  unchanged : result = false → w'.loaders = w.loaders

/-- The position and the limit of the buffer stay, and what is written is all its bytes. -/
structure BufferKept (w : World A) (_ : Call A) (_ : Bool) (w' : World A) : Prop where
  buffer_eq : w'.buffer = w.buffer
  written : w'.written = w.written ∨
    ∃ b, w.buffer = some b ∧ w'.written = b.rest :: w.written

/-- All that a call should do. -/
structure Clean (w : World A) (c : Call A) (result : Bool) (w' : World A) : Prop where
  eitherOr : EitherOr w c result w'
  bufferKept : BufferKept w c result w'
  /-- Every file descriptor that was opened is closed. -/
  openFds_eq : w'.openFds = w.openFds

/-- A loader that is attached stays only if the function returns `true`: nothing raises from
`addLoaders` on, or it is the lookup and the loader is removed. -/
def Faults.KeepsEitherOr (f : Faults) : Prop :=
  f.attaches = true → f.addLoaders = .returns ∧ f.close = .returns ∧
    (f.getString = true → f.removeLoaders.takesEffect = true)

/-- No second file is opened, and the first one is closed. -/
def Faults.KeepsFds (f : Faults) : Prop := f.opensPfd = false ∧ f.leaksMemfd = false

section Conditions

variable {f : Faults}

theorem Faults.succeeds_iff :
    f.succeeds = true ↔ f.reachesAddLoaders = true ∧ f.addLoaders = .returns ∧
      f.close = .returns ∧ f.getString = false := by
  simp only [Faults.succeeds, Faults.returnsLoader, Bool.and_eq_true, Bool.not_eq_true',
    decide_eq_true_eq, and_assoc]

theorem Faults.attaches_of_succeeds (h : f.succeeds = true) :
    f.attaches = true ∧ f.detaches = false := by
  obtain ⟨hreach, hadd, -, hget⟩ := Faults.succeeds_iff.mp h
  rw [Faults.attaches, Faults.detaches, hreach, hadd, hget, Bool.and_false, Bool.false_and]
  exact ⟨rfl, rfl⟩

theorem Faults.detaches_iff :
    f.detaches = true ↔ f.reachesAddLoaders = true ∧ f.addLoaders = .returns ∧
      f.close = .returns ∧ f.getString = true ∧ f.removeLoaders.takesEffect = true := by
  simp only [Faults.detaches, Faults.returnsLoader, Bool.and_eq_true, decide_eq_true_eq, and_assoc]

/-- In other words: a call that fails leaves no loader. -/
theorem Faults.keepsEitherOr_iff :
    f.KeepsEitherOr ↔ (f.succeeds = false → (f.attaches && !f.detaches) = false) := by
  constructor
  · intro h hfalse
    cases hattaches : f.attaches with
    | false => rfl
    | true =>
        obtain ⟨hadd, hclose, hremove⟩ := h hattaches
        have hreach : f.reachesAddLoaders = true := by
          rw [Faults.attaches, Bool.and_eq_true] at hattaches
          exact hattaches.1
        have hget : f.getString = true := by
          by_contra hget
          have hsucceeds := Faults.succeeds_iff.mpr
            ⟨hreach, hadd, hclose, eq_false_of_ne_true hget⟩
          rw [hfalse] at hsucceeds
          cases hsucceeds
        rw [Faults.detaches_iff.mpr ⟨hreach, hadd, hclose, hget, hremove hget⟩]
        rfl
  · intro h hattaches
    cases hsucceeds : f.succeeds with
    | true =>
        obtain ⟨-, hadd, hclose, hget⟩ := Faults.succeeds_iff.mp hsucceeds
        refine ⟨hadd, hclose, ?_⟩
        rw [hget]
        rintro ⟨⟩
    | false =>
        have hdetaches : f.detaches = true := by
          have hkept := h hsucceeds
          rwa [hattaches, Bool.true_and, Bool.not_eq_false'] at hkept
        obtain ⟨-, hadd, hclose, -, hremove⟩ := Faults.detaches_iff.mp hdetaches
        exact ⟨hadd, hclose, fun _ ↦ hremove⟩

theorem Faults.attaches_of_not_opensPfd (h : f.opensPfd = false) : f.attaches = false := by
  rw [Faults.attaches, Faults.reachesAddLoaders, h]
  rfl

end Conditions

section Runs

variable {w : World A} (hw : w.Valid) (c : Call A) (bytes : List UInt8)

include hw

omit [DecidableEq A] in
theorem World.Valid.nextLoader_notMem (a : A) : w.nextLoader ∉ w.loaders a :=
  fun h ↦ Nat.lt_irrefl _ (hw.loaders_lt a _ h)

theorem eitherOr_after :
    EitherOr w c c.faults.succeeds (w.after c.faults c.activity bytes) ↔
      c.faults.KeepsEitherOr := by
  rw [Faults.keepsEitherOr_iff]
  constructor
  · intro h hfalse
    by_contra hkept
    have hloaders := h.unchanged hfalse
    rw [loaders_after_of_attaches (eq_true_of_ne_false hkept)] at hloaders
    -- the loader on the Activity is a new one
    have hlast := congrFun hloaders c.activity
    rw [Function.update_self] at hlast
    simp at hlast
  · intro h
    constructor
    · intro htrue
      obtain ⟨hattaches, hdetaches⟩ := Faults.attaches_of_succeeds htrue
      refine ⟨w.nextLoader, hw.nextLoader_notMem, loaders_after_of_attaches ?_ w⟩
      rw [hattaches, hdetaches]
      rfl
    · intro hfalse
      exact loaders_after_of_not (h hfalse) w

omit hw in
theorem bufferKept_after {b : ByteBuffer} (hb : w.buffer = some b) (result : Bool) :
    BufferKept w c result (w.after c.faults c.activity b.rest) := by
  constructor
  · rfl
  · cases h : c.faults.opensMemfd && !c.faults.write with
    | true => exact .inr ⟨b, hb, if_pos h⟩
    | false => exact .inl (if_neg (ne_true_of_eq_false h))

omit hw in
theorem openFds_after_eq_iff :
    (w.after c.faults c.activity bytes).openFds = w.openFds ↔ c.faults.KeepsFds := by
  show (if c.faults.opensPfd then _ else _) ++ (if c.faults.leaksMemfd then _ else _) ++ _ = _ ↔ _
  rw [Faults.KeepsFds]
  cases c.faults.opensPfd <;> cases c.faults.leaksMemfd
  · simp
  · simp
  · simp
  · refine iff_of_false (fun h ↦ ?_) (by simp)
    have hlength := congrArg List.length h
    simp at hlength
    omega

theorem clean_after {b : ByteBuffer} (hb : w.buffer = some b) :
    Clean w c c.faults.succeeds (w.after c.faults c.activity b.rest) ↔ c.faults.KeepsFds := by
  constructor
  · intro h
    exact (openFds_after_eq_iff c b.rest).mp h.openFds_eq
  · intro h
    refine ⟨(eitherOr_after hw c b.rest).mpr ?_, bufferKept_after c hb _,
      (openFds_after_eq_iff c b.rest).mpr h⟩
    intro hattaches
    rw [Faults.attaches_of_not_opensPfd h.1] at hattaches
    cases hattaches

end Runs

/-- What one call does if and only if its faults allow it, every call does if and only if all
faults do. -/
theorem everyCall_iff {sdkInt : Nat} (hsdk : 30 ≤ sdkInt) {b : ByteBuffer}
    {P : World A → Call A → Bool → World A → Prop} {Q : Faults → Prop}
    (hP : ∀ w : World A, w.Valid → w.buffer = some b → ∀ c : Call A,
      P w c c.faults.succeeds (w.after c.faults c.activity b.rest) ↔ Q c.faults)
    {w : World A} (hw : w.Valid) (hb : w.buffer = some b) (calls : List (Call A)) :
    EveryCall sdkInt P w calls ↔ ∀ c ∈ calls, Q c.faults := by
  induction calls generalizing w with
  | nil => simp [EveryCall]
  | cons c calls ih =>
      rw [EveryCall, tryInstall_eq hsdk c.faults c.activity hw hb, List.forall_mem_cons]
      exact and_congr (hP w hw hb c) (ih (valid_after hw) hb)

/-- Every call does all it should do if and only if no call opens a second file and each
closes the first one; every call leaves one loader or none, as it says, if and only if nothing
raises between `addLoaders` and the lookup and a failed lookup ends with the removal; and every
call sees all bytes of the buffer. -/
theorem tryInstall_clean_iff {sdkInt : Nat} (hsdk : 30 ≤ sdkInt) {b : ByteBuffer} {w : World A}
    (hw : w.Valid) (hb : w.buffer = some b) (calls : List (Call A)) :
    (EveryCall sdkInt Clean w calls ↔ ∀ c ∈ calls, c.faults.KeepsFds) ∧
      (EveryCall sdkInt EitherOr w calls ↔ ∀ c ∈ calls, c.faults.KeepsEitherOr) ∧
      EveryCall sdkInt BufferKept w calls := by
  refine ⟨everyCall_iff hsdk ?_ hw hb calls, everyCall_iff hsdk ?_ hw hb calls, ?_⟩
  · intro w hw hb c
    exact clean_after hw c hb
  · intro w hw _ c
    exact eitherOr_after hw c b.rest
  · refine (everyCall_iff (Q := fun _ ↦ True) hsdk ?_ hw hb calls).mpr fun _ _ ↦ trivial
    intro w _ hb c
    exact iff_true_intro (bufferKept_after c hb _)

/-- No call meets an exception but the first, whose `Os.close` raises one. -/
def closeRaises : Faults :=
  ⟨false, false, false, false, false, false, .returns, .raisesAfter, false, .returns⟩

/-- No call meets an exception. -/
def faultless : Faults :=
  ⟨false, false, false, false, false, false, .returns, .returns, false, .returns⟩

/-- No call meets an exception but, after the loader was attached, the lookup. -/
def lookupRaises : Faults :=
  ⟨false, false, false, false, false, false, .returns, .returns, true, .returns⟩

/-- The first call of a process, with a buffer of three bytes. -/
def firstWorld {A : Type} : World A := ⟨fun _ ↦ [], 0, [], 0, some ⟨[1, 2, 3], 0, 3⟩, []⟩

theorem valid_firstWorld {A : Type} : (firstWorld : World A).Valid := ⟨fun _ _ h ↦ absurd h List.not_mem_nil,
  fun _ h ↦ absurd h List.not_mem_nil⟩

/-- The calls for two Activities.  Where a write and then `dup` raise, both are clean; where the
first succeeds and the lookup of the second raises, the first keeps its loader and the second has
none. -/
theorem tryInstall_clean_twoScreens :
    EveryCall 30 Clean firstWorld
      [⟨0, ⟨false, true, false, false, false, false, .returns, .returns, false, .returns⟩⟩,
        ⟨1, ⟨false, false, false, true, false, false, .returns, .returns, false, .returns⟩⟩] ∧
    EveryCall 30 EitherOr firstWorld [⟨0, faultless⟩, ⟨1, lookupRaises⟩] ∧
    (let w := (tryInstallGeneralResourcesLoader 30 faultless 0 firstWorld).2
     let w' := (tryInstallGeneralResourcesLoader 30 lookupRaises 1 w).2
     w'.loaders 0 = [0] ∧ w'.loaders 1 = []) := by
  refine ⟨(tryInstall_clean_iff (by decide) valid_firstWorld rfl _).1.mpr ?_,
    (tryInstall_clean_iff (by decide) valid_firstWorld rfl _).2.1.mpr ?_, rfl, rfl⟩
  · intro c hc
    rcases List.mem_pair.mp hc with rfl | rfl <;> exact ⟨rfl, rfl⟩
  · intro c hc
    rcases List.mem_pair.mp hc with rfl | rfl
    · exact fun _ ↦ ⟨rfl, rfl, nofun⟩
    · exact fun _ ↦ ⟨rfl, rfl, fun _ ↦ rfl⟩

/-- `Os.close` raises an exception after the loader was attached: the call returns `false`, the
loader stays, and so does the second file. -/
theorem not_clean_closeRaises :
    (tryInstallGeneralResourcesLoader 30 closeRaises () firstWorld).1 = false ∧
      (tryInstallGeneralResourcesLoader 30 closeRaises () firstWorld).2.loaders () = [0] ∧
      ¬EveryCall 30 Clean firstWorld [⟨(), closeRaises⟩] := by
  refine ⟨rfl, rfl, ?_⟩
  rintro ⟨h, -⟩
  have hloaders := congrFun (h.eitherOr.unchanged rfl) ()
  cases hloaders

end Konative.Android.ResourcesLoader
