import Konative.Lib.Custody
import Konative.Lib.Lts

/-!
# `LocalRef` and `GlobalRef`

The two wrappers of JNI references, any number of them, through any sequence of
constructions, moves, resets and destructions.  A wrapper is named by where it is, so a
name can be used again once the wrapper that had it was destroyed.  `R` are the references
themselves and not their handles, which the VM may give out again: a local reference is one
of an environment, a global reference is none.

What is done with references is custody of them: a `LocalRef` lets its reference out by
deleting it, a `GlobalRef` either so or by being destroyed while it has one, which it has
then not been reset since it got it.
-/

namespace Konative.Jni.RefWrapper

universe u v

/-! ## The VM -/

/-- What the VM was asked for. -/
structure Vm (E R : Type u) where
  /-- The local references handed to a wrapper. -/
  handed : List (E × R)
  /-- The calls of `DeleteLocalRef`. -/
  deletedLocals : List (E × R)
  /-- The results of `NewGlobalRef`. -/
  newGlobals : List R
  /-- The calls of `DeleteGlobalRef`. -/
  deletedGlobals : List R

variable {E R : Type u}

/-- `env->DeleteLocalRef(obj)`. -/
def Vm.deleteLocalRef (vm : Vm E R) (env : E) (obj : R) : Vm E R :=
  { vm with deletedLocals := (env, obj) :: vm.deletedLocals }

/-- `env->DeleteGlobalRef(obj)`. -/
def Vm.deleteGlobalRef (vm : Vm E R) (obj : R) : Vm E R :=
  { vm with deletedGlobals := obj :: vm.deletedGlobals }

/-! ## `LocalRef` -/

/-- `LocalRef<T>`: it has an environment exactly if it has a reference. -/
structure LocalRef (E R : Type u) where
  env : Option E
  obj : Option R
  isSome_env : env.isSome = obj.isSome

namespace LocalRef

/-- `LocalRef()`, and what `release_ownership` leaves. -/
def empty : LocalRef E R := ⟨none, none, rfl⟩

theorem isSome_guard (env : E) (obj : Option R) :
    (if obj.isSome then some env else none).isSome = obj.isSome := by
  cases obj with
  | none => rfl
  | some obj => rfl

/-- `LocalRef(env, obj)`. -/
def ofObj (env : E) (obj : Option R) : LocalRef E R :=
  ⟨if obj.isSome then some env else none, obj, isSome_guard env obj⟩

/-- The reference the wrapper owns. -/
def held (a : LocalRef E R) : Option (E × R) := a.env.bind fun env ↦ a.obj.map (env, ·)

/-- `reset()`. -/
def reset (a : LocalRef E R) (vm : Vm E R) : LocalRef E R × Vm E R :=
  match a.obj, a.env with
  | some obj, some env => (empty, vm.deleteLocalRef env obj)
  | _, _ => (empty, vm)

/-- `operator=(LocalRef&& other)` from another wrapper: the new value of this one, what is
left of the other one, and the VM. -/
def moveAssign (a other : LocalRef E R) (vm : Vm E R) : LocalRef E R × LocalRef E R × Vm E R :=
  let (_, vm) := a.reset vm
  (other, empty, vm)

theorem held_empty : (empty : LocalRef E R).held = none := rfl

theorem reset_eq (a : LocalRef E R) (vm : Vm E R) :
    a.reset vm = (empty, { vm with deletedLocals := a.held.toList ++ vm.deletedLocals }) := by
  rcases a with ⟨env, obj, h⟩
  cases obj with
  | none => cases env <;> rfl
  | some obj =>
      cases env with
      | none => rfl
      | some env => rfl

end LocalRef

/-! ## `GlobalRef` -/

/-- `GlobalRef<T>`. -/
structure GlobalRef (R : Type u) where
  obj : Option R

namespace GlobalRef

/-- `GlobalRef()`. -/
def empty : GlobalRef R := ⟨none⟩

/-- `GlobalRef(env, local_obj)`, where `NewGlobalRef` gives `result`. -/
def ofObj (localObj result : Option R) : GlobalRef R := ⟨if localObj.isSome then result else none⟩

/-- `reset(env)`. -/
def reset (a : GlobalRef R) (env : Option E) (vm : Vm E R) : GlobalRef R × Vm E R :=
  match a.obj, env with
  | some obj, some _ => (empty, vm.deleteGlobalRef obj)
  | _, _ => (empty, vm)

/-- `operator=(GlobalRef&& other)` from another wrapper, or nothing where the assertion
fails. -/
def moveAssign (a other : GlobalRef R) : Option (GlobalRef R × GlobalRef R) :=
  if a.obj.isNone then some (other, empty) else none

theorem reset_eq (a : GlobalRef R) (env : E) (vm : Vm E R) :
    a.reset (some env) vm =
      (empty, { vm with deletedGlobals := a.obj.toList ++ vm.deletedGlobals }) := by
  rcases a with ⟨obj⟩
  cases obj with
  | none => rfl
  | some obj => rfl

end GlobalRef

/-! ## Any number of wrappers -/

/-- What is done with wrappers; `i` and `j` are local ones, `k` and `l` global ones. -/
inductive Op (ι κ : Type v) (E R : Type u)
  /-- `LocalRef i;` -/
  | newLocal (i : ι)
  /-- `LocalRef i(env, obj);` -/
  | newLocalOf (i : ι) (env : E) (obj : Option R)
  /-- `LocalRef i(std::move(j));` -/
  | newLocalFrom (i j : ι)
  /-- `i = std::move(j);` -/
  | assignLocal (i j : ι)
  /-- `i.reset();` -/
  | resetLocal (i : ι)
  /-- `i` is destroyed. -/
  | destroyLocal (i : ι)
  /-- `GlobalRef k;` -/
  | newGlobal (k : κ)
  /-- `GlobalRef k(env, localObj);`, where `NewGlobalRef` gives `result`. -/
  | newGlobalOf (k : κ) (localObj result : Option R)
  /-- `GlobalRef k(std::move(l));` -/
  | newGlobalFrom (k l : κ)
  /-- `k = std::move(l);` -/
  | assignGlobal (k l : κ)
  /-- `k.reset(env);` -/
  | resetGlobal (k : κ) (env : E)
  /-- `k` is destroyed. -/
  | destroyGlobal (k : κ)
deriving DecidableEq, Repr

/-- Why an operation does not end with a state. -/
inductive Stop
  /-- The caller names a wrapper that is not there, makes one where one is, or hands in a
  reference that was handed in before; or `NewGlobalRef` gives one that it gave before. -/
  | illegal
  /-- A `KONATIVE_ASSERT` fails, and the process aborts. -/
  | aborted
deriving DecidableEq, Repr

/-- The wrappers that are alive, and the VM. -/
structure Wrappers (ι κ : Type v) (E R : Type u) where
  locals : ι → Option (LocalRef E R)
  globals : κ → Option (GlobalRef R)
  vm : Vm E R

namespace Wrappers

variable {ι κ : Type v}

/-- No wrapper is alive, and the VM was asked for nothing. -/
def start : Wrappers ι κ E R := ⟨fun _ ↦ none, fun _ ↦ none, ⟨[], [], [], []⟩⟩

/-- What `f` does to the `LocalRef` at `i`. -/
def withLocal {α : Type*} (s : Wrappers ι κ E R) (i : ι) (f : LocalRef E R → Except Stop α) :
    Except Stop α :=
  match s.locals i with
  | some a => f a
  | none => .error .illegal

/-- What `f` does to the `GlobalRef` at `k`. -/
def withGlobal {α : Type*} (s : Wrappers ι κ E R) (k : κ) (f : GlobalRef R → Except Stop α) :
    Except Stop α :=
  match s.globals k with
  | some a => f a
  | none => .error .illegal

variable [DecidableEq ι] [DecidableEq κ]

def setLocal (s : Wrappers ι κ E R) (i : ι) (a : Option (LocalRef E R)) : Wrappers ι κ E R :=
  { s with locals := Function.update s.locals i a }

def setGlobal (s : Wrappers ι κ E R) (k : κ) (a : Option (GlobalRef R)) : Wrappers ι κ E R :=
  { s with globals := Function.update s.globals k a }

/-- A new `LocalRef` at `i`. -/
def putLocal (s : Wrappers ι κ E R) (i : ι) (a : LocalRef E R) : Except Stop (Wrappers ι κ E R) :=
  if (s.locals i).isNone then .ok (s.setLocal i (some a)) else .error .illegal

/-- A new `GlobalRef` at `k`. -/
def putGlobal (s : Wrappers ι κ E R) (k : κ) (a : GlobalRef R) : Except Stop (Wrappers ι κ E R) :=
  if (s.globals k).isNone then .ok (s.setGlobal k (some a)) else .error .illegal

/-- One operation. -/
def exec [DecidableEq E] [DecidableEq R] (s : Wrappers ι κ E R) : Op ι κ E R → Except Stop (Wrappers ι κ E R)
  | .newLocal i => s.putLocal i .empty
  | .newLocalOf i env obj =>
      let a := LocalRef.ofObj env obj
      if ∀ p ∈ a.held, p ∉ s.vm.handed then
        { s with vm := { s.vm with handed := a.held.toList ++ s.vm.handed } }.putLocal i a
      else .error .illegal
  | .newLocalFrom i j => s.withLocal j fun other ↦ (s.setLocal j (some .empty)).putLocal i other
  | .assignLocal i j => s.withLocal i fun a ↦ s.withLocal j fun other ↦
      if i = j then .ok s
      else
        let (a, other, vm) := a.moveAssign other s.vm
        .ok { (s.setLocal i (some a)).setLocal j (some other) with vm := vm }
  | .resetLocal i => s.withLocal i fun a ↦
      let (a, vm) := a.reset s.vm
      .ok { s.setLocal i (some a) with vm := vm }
  | .destroyLocal i => s.withLocal i fun a ↦
      let (_, vm) := a.reset s.vm
      .ok { s.setLocal i none with vm := vm }
  | .newGlobal k => s.putGlobal k .empty
  | .newGlobalOf k localObj result =>
      let a := GlobalRef.ofObj localObj result
      if ∀ r ∈ a.obj, r ∉ s.vm.newGlobals then
        { s with vm := { s.vm with newGlobals := a.obj.toList ++ s.vm.newGlobals } }.putGlobal k a
      else .error .illegal
  | .newGlobalFrom k l => s.withGlobal l fun other ↦ (s.setGlobal l (some .empty)).putGlobal k other
  | .assignGlobal k l => s.withGlobal k fun a ↦ s.withGlobal l fun other ↦
      if k = l then .ok s
      else match a.moveAssign other with
        | some (a, other) => .ok ((s.setGlobal k (some a)).setGlobal l (some other))
        | none => .error .aborted
  | .resetGlobal k env => s.withGlobal k fun a ↦
      let (a, vm) := a.reset (some env) s.vm
      .ok { s.setGlobal k (some a) with vm := vm }
  | .destroyGlobal k => s.withGlobal k fun _ ↦ .ok (s.setGlobal k none)

/-! ## Wrappers as custody -/

/-- The ways in which a `GlobalRef` lets go of a reference. -/
inductive Ending
  | deleted
  /-- The wrapper was destroyed while it had it. -/
  | abandoned
deriving DecidableEq

/-- What ended in each way. -/
def endings (deleted abandoned : List R) : Ending → List R
  | .deleted => deleted
  | .abandoned => abandoned

/-- The custody of local references. -/
def localCustody (s : Wrappers ι κ E R) : Custody ι Unit (E × R) :=
  .ofTable LocalRef.held s.locals s.vm.handed fun _ ↦ s.vm.deletedLocals

/-- The custody of global references, of which some were abandoned. -/
def globalCustody (s : Wrappers ι κ E R) (abandoned : List R) : Custody κ Ending R :=
  .ofTable GlobalRef.obj s.globals s.vm.newGlobals (endings s.vm.deletedGlobals abandoned)

section Cases

omit [DecidableEq ι] [DecidableEq κ]

variable {α : Type*} {s s' : Wrappers ι κ E R}

theorem withLocal_eq_ok {i : ι} {f : LocalRef E R → Except Stop α} {x : α}
    (h : s.withLocal i f = .ok x) : ∃ a, s.locals i = some a ∧ f a = .ok x := by
  unfold withLocal at h
  cases hi : s.locals i with
  | none =>
      rw [hi] at h
      cases h
  | some a =>
      rw [hi] at h
      exact ⟨a, rfl, h⟩

theorem withGlobal_eq_ok {k : κ} {f : GlobalRef R → Except Stop α} {x : α}
    (h : s.withGlobal k f = .ok x) : ∃ a, s.globals k = some a ∧ f a = .ok x := by
  unfold withGlobal at h
  cases hk : s.globals k with
  | none =>
      rw [hk] at h
      cases h
  | some a =>
      rw [hk] at h
      exact ⟨a, rfl, h⟩

theorem putLocal_eq_ok [DecidableEq ι] {i : ι} {a : LocalRef E R} (h : s.putLocal i a = .ok s') :
    s.locals i = none ∧ s' = s.setLocal i (some a) := by
  unfold putLocal at h
  split at h
  · exact ⟨Option.isNone_iff_eq_none.mp ‹_›, (Except.ok.inj h).symm⟩
  · cases h

theorem putGlobal_eq_ok [DecidableEq κ] {k : κ} {a : GlobalRef R} (h : s.putGlobal k a = .ok s') :
    s.globals k = none ∧ s' = s.setGlobal k (some a) := by
  unfold putGlobal at h
  split at h
  · exact ⟨Option.isNone_iff_eq_none.mp ‹_›, (Except.ok.inj h).symm⟩
  · cases h

end Cases

/-- What an operation does, where it ends with a state. -/
inductive Effect (s : Wrappers ι κ E R) : Op ι κ E R → Wrappers ι κ E R → Prop
  | newLocal {i} (hi : s.locals i = none) : Effect s (.newLocal i) (s.setLocal i (some .empty))
  | newLocalOf {i env obj} (hi : s.locals i = none)
      (hnew : ∀ p ∈ (LocalRef.ofObj env obj).held, p ∉ s.vm.handed) :
      Effect s (.newLocalOf i env obj)
        { s.setLocal i (some (.ofObj env obj)) with
          vm := { s.vm with handed := (LocalRef.ofObj env obj).held.toList ++ s.vm.handed } }
  | newLocalFrom {i j other} (hi : s.locals i = none) (hj : s.locals j = some other) :
      Effect s (.newLocalFrom i j) ((s.setLocal i (some other)).setLocal j (some .empty))
  | assignLocalSelf {i a} (hi : s.locals i = some a) : Effect s (.assignLocal i i) s
  | assignLocal {i j a other} (hij : i ≠ j) (hi : s.locals i = some a)
      (hj : s.locals j = some other) :
      Effect s (.assignLocal i j)
        { (s.setLocal i (some other)).setLocal j (some .empty) with
          vm := { s.vm with deletedLocals := a.held.toList ++ s.vm.deletedLocals } }
  | resetLocal {i a} (hi : s.locals i = some a) :
      Effect s (.resetLocal i)
        { s.setLocal i (some .empty) with
          vm := { s.vm with deletedLocals := a.held.toList ++ s.vm.deletedLocals } }
  | destroyLocal {i a} (hi : s.locals i = some a) :
      Effect s (.destroyLocal i)
        { s.setLocal i none with
          vm := { s.vm with deletedLocals := a.held.toList ++ s.vm.deletedLocals } }
  | newGlobal {k} (hk : s.globals k = none) : Effect s (.newGlobal k) (s.setGlobal k (some .empty))
  | newGlobalOf {k localObj result} (hk : s.globals k = none)
      (hnew : ∀ r ∈ (GlobalRef.ofObj localObj result).obj, r ∉ s.vm.newGlobals) :
      Effect s (.newGlobalOf k localObj result)
        { s.setGlobal k (some (.ofObj localObj result)) with
          vm := { s.vm with
            newGlobals := (GlobalRef.ofObj localObj result).obj.toList ++ s.vm.newGlobals } }
  | newGlobalFrom {k l other} (hk : s.globals k = none) (hl : s.globals l = some other) :
      Effect s (.newGlobalFrom k l) ((s.setGlobal k (some other)).setGlobal l (some .empty))
  | assignGlobalSelf {k a} (hk : s.globals k = some a) : Effect s (.assignGlobal k k) s
  | assignGlobal {k l a other} (hkl : k ≠ l) (hk : s.globals k = some a) (ha : a.obj = none)
      (hl : s.globals l = some other) :
      Effect s (.assignGlobal k l) ((s.setGlobal k (some other)).setGlobal l (some .empty))
  | resetGlobal {k env a} (hk : s.globals k = some a) :
      Effect s (.resetGlobal k env)
        { s.setGlobal k (some .empty) with
          vm := { s.vm with deletedGlobals := a.obj.toList ++ s.vm.deletedGlobals } }
  | destroyGlobal {k a} (hk : s.globals k = some a) :
      Effect s (.destroyGlobal k) (s.setGlobal k none)

omit [DecidableEq κ] in
theorem putLocal_setLocal_eq_ok {s s' : Wrappers ι κ E R} {i j : ι} {other a : LocalRef E R}
    (h : (s.setLocal j (some a)).putLocal i other = .ok s') :
    s.locals i = none ∧ s' = (s.setLocal i (some other)).setLocal j (some a) := by
  obtain ⟨hput, rfl⟩ := putLocal_eq_ok h
  obtain ⟨hij, hi⟩ := Lts.update_eq_none hput
  refine ⟨hi, ?_⟩
  rw [setLocal, setLocal, setLocal, setLocal, Function.update_comm hij]

omit [DecidableEq ι] in
theorem putGlobal_setGlobal_eq_ok {s s' : Wrappers ι κ E R} {k l : κ} {other a : GlobalRef R}
    (h : (s.setGlobal l (some a)).putGlobal k other = .ok s') :
    s.globals k = none ∧ s' = (s.setGlobal k (some other)).setGlobal l (some a) := by
  obtain ⟨hput, rfl⟩ := putGlobal_eq_ok h
  obtain ⟨hkl, hk⟩ := Lts.update_eq_none hput
  refine ⟨hk, ?_⟩
  rw [setGlobal, setGlobal, setGlobal, setGlobal, Function.update_comm hkl]

theorem effect_of_exec [DecidableEq E] [DecidableEq R] {s s' : Wrappers ι κ E R} {op : Op ι κ E R}
    (h : s.exec op = .ok s') : Effect s op s' := by
  cases op with
  | newLocal i =>
      obtain ⟨hi, rfl⟩ := putLocal_eq_ok h
      exact .newLocal hi
  | newLocalOf i env obj =>
      simp only [exec] at h
      split at h
      · obtain ⟨hi, rfl⟩ := putLocal_eq_ok h
        exact .newLocalOf hi ‹_›
      · cases h
  | newLocalFrom i j =>
      obtain ⟨other, hj, h⟩ := withLocal_eq_ok h
      obtain ⟨hi, rfl⟩ := putLocal_setLocal_eq_ok h
      exact .newLocalFrom hi hj
  | assignLocal i j =>
      obtain ⟨a, hi, ha⟩ := withLocal_eq_ok h
      obtain ⟨other, hj, hother⟩ := withLocal_eq_ok ha
      split at hother
      · subst ‹i = j›
        cases hother
        exact .assignLocalSelf hi
      · simp only [LocalRef.moveAssign, LocalRef.reset_eq] at hother
        cases hother
        exact .assignLocal ‹_› hi hj
  | resetLocal i =>
      obtain ⟨a, hi, h⟩ := withLocal_eq_ok h
      rw [LocalRef.reset_eq] at h
      cases h
      exact .resetLocal hi
  | destroyLocal i =>
      obtain ⟨a, hi, h⟩ := withLocal_eq_ok h
      rw [LocalRef.reset_eq] at h
      cases h
      exact .destroyLocal hi
  | newGlobal k =>
      obtain ⟨hk, rfl⟩ := putGlobal_eq_ok h
      exact .newGlobal hk
  | newGlobalOf k localObj result =>
      simp only [exec] at h
      split at h
      · obtain ⟨hk, rfl⟩ := putGlobal_eq_ok h
        exact .newGlobalOf hk ‹_›
      · cases h
  | newGlobalFrom k l =>
      obtain ⟨other, hl, h⟩ := withGlobal_eq_ok h
      obtain ⟨hk, rfl⟩ := putGlobal_setGlobal_eq_ok h
      exact .newGlobalFrom hk hl
  | assignGlobal k l =>
      obtain ⟨a, hk, ha⟩ := withGlobal_eq_ok h
      obtain ⟨other, hl, hother⟩ := withGlobal_eq_ok ha
      split at hother
      · subst ‹k = l›
        cases hother
        exact .assignGlobalSelf hk
      · unfold GlobalRef.moveAssign at hother
        cases hobj : a.obj with
        | none =>
            rw [hobj] at hother
            cases hother
            exact .assignGlobal ‹_› hk hobj hl
        | some r =>
            rw [hobj] at hother
            cases hother
  | resetGlobal k env =>
      obtain ⟨a, hk, h⟩ := withGlobal_eq_ok h
      rw [GlobalRef.reset_eq] at h
      cases h
      exact .resetGlobal hk
  | destroyGlobal k =>
      obtain ⟨a, hk, h⟩ := withGlobal_eq_ok h
      cases h
      exact .destroyGlobal hk

/-! ### A reset, and a move over a wrapper that has something -/

section Assign

variable [DecidableEq E] [DecidableEq R] {s : Wrappers ι κ E R}

theorem exec_resetLocal {i : ι} {a : LocalRef E R} (hi : s.locals i = some a) :
    s.exec (.resetLocal i) =
      .ok { s.setLocal i (some .empty) with
        vm := { s.vm with deletedLocals := a.held.toList ++ s.vm.deletedLocals } } := by
  simp only [exec, withLocal, hi, LocalRef.reset_eq]

theorem exec_resetGlobal {k : κ} {a : GlobalRef R} (hk : s.globals k = some a) (env : E) :
    s.exec (.resetGlobal k env) =
      .ok { s.setGlobal k (some .empty) with
        vm := { s.vm with deletedGlobals := a.obj.toList ++ s.vm.deletedGlobals } } := by
  simp only [exec, withGlobal, hk, GlobalRef.reset_eq]

theorem exec_assignLocal {i j : ι} {a b : LocalRef E R} (hij : i ≠ j) (hi : s.locals i = some a)
    (hj : s.locals j = some b) :
    s.exec (.assignLocal i j) =
      .ok { (s.setLocal i (some b)).setLocal j (some .empty) with
        vm := { s.vm with deletedLocals := a.held.toList ++ s.vm.deletedLocals } } := by
  simp only [exec, withLocal, hi, hj, if_neg hij, LocalRef.moveAssign, LocalRef.reset_eq]

theorem exec_assignGlobal_of_some {k l : κ} {a b : GlobalRef R} {r : R} (hkl : k ≠ l)
    (hk : s.globals k = some a) (hl : s.globals l = some b) (ha : a.obj = some r) :
    s.exec (.assignGlobal k l) = .error .aborted := by
  simp only [exec, withGlobal, hk, hl, if_neg hkl, GlobalRef.moveAssign, ha, Option.isNone_some]
  rfl

end Assign

/-! ### Custody stays sound -/

omit [DecidableEq κ] in
/-- A reset lets out what the wrapper has, whether the wrapper stays or not. -/
theorem sound_localCustody_reset {s : Wrappers ι κ E R} {i : ι} {a : LocalRef E R}
    (hs : s.localCustody.Sound) (hi : s.locals i = some a) {b : Option (LocalRef E R)}
    (hb : b.bind LocalRef.held = none) :
    ({ s.setLocal i b with
        vm := { s.vm with deletedLocals := a.held.toList ++ s.vm.deletedLocals } } :
      Wrappers ι κ E R).localCustody.Sound := by
  have hout := hs.letOut () i hb
  rw [hi, Option.bind_some] at hout
  have hconst : Function.update (fun _ : Unit ↦ s.vm.deletedLocals) ()
      (a.held.toList ++ s.vm.deletedLocals) = fun _ ↦ a.held.toList ++ s.vm.deletedLocals := by
    funext
    rfl
  rwa [hconst] at hout

theorem sound_localCustody {s s' : Wrappers ι κ E R} {op : Op ι κ E R} (h : Effect s op s')
    (hs : s.localCustody.Sound) : s'.localCustody.Sound := by
  cases h with
  | newLocal hi => exact hs.new hi .empty (by rintro r ⟨⟩)
  | newLocalOf hi hnew => exact hs.new hi _ hnew
  | newLocalFrom hi hj => exact hs.passOn (by rw [hi]; rfl) hj rfl
  | assignLocalSelf hi => exact hs
  | @assignLocal i j a other hij hi hj =>
      -- the old reference goes first, as in the code
      have hreset := sound_localCustody_reset hs hi (b := some .empty) rfl
      have hi' : (Function.update s.locals i (some .empty) i).bind LocalRef.held = none := by
        rw [Function.update_self]
        rfl
      have hj' : Function.update s.locals i (some .empty) j = some other := by
        rw [Function.update_of_ne hij.symm, hj]
      have hmove := Custody.Sound.passOn (t := Function.update s.locals i (some .empty)) hreset hi'
        hj' LocalRef.held_empty
      rwa [Function.update_idem] at hmove
  | resetLocal hi => exact sound_localCustody_reset hs hi rfl
  | destroyLocal hi => exact sound_localCustody_reset hs hi rfl
  | newGlobal | newGlobalOf | newGlobalFrom | assignGlobalSelf | assignGlobal | resetGlobal
    | destroyGlobal => exact hs

/-- The references an operation abandons. -/
def abandons (s : Wrappers ι κ E R) : Op ι κ E R → List R
  | .destroyGlobal k => ((s.globals k).bind GlobalRef.obj).toList
  | _ => []

omit [DecidableEq ι] [DecidableEq κ] in
theorem endings_deleted (l deleted abandoned : List R) :
    endings (l ++ deleted) abandoned =
      Function.update (endings deleted abandoned) .deleted (l ++ deleted) := by
  funext k
  cases k <;> rfl

omit [DecidableEq ι] [DecidableEq κ] in
theorem endings_abandoned (l deleted abandoned : List R) :
    endings deleted (l ++ abandoned) =
      Function.update (endings deleted abandoned) .abandoned (l ++ abandoned) := by
  funext k
  cases k <;> rfl

theorem sound_globalCustody {s s' : Wrappers ι κ E R} {op : Op ι κ E R} (h : Effect s op s')
    {abandoned : List R} (hs : (s.globalCustody abandoned).Sound) :
    (s'.globalCustody (s.abandons op ++ abandoned)).Sound := by
  cases h with
  | newGlobal hk => exact hs.new hk .empty (by rintro r ⟨⟩)
  | newGlobalOf hk hnew => exact hs.new hk _ hnew
  | newGlobalFrom hk hl => exact hs.passOn (by rw [hk]; rfl) hl rfl
  | assignGlobalSelf hk => exact hs
  | assignGlobal hkl hk ha hl => exact hs.passOn (by rw [hk]; exact ha) hl rfl
  | @resetGlobal k env a hk =>
      have hout := hs.letOut .deleted k (b := some .empty) rfl
      rw [hk, Option.bind_some] at hout
      show (Custody.ofTable GlobalRef.obj _ _ (endings _ abandoned)).Sound
      rw [endings_deleted]
      exact hout
  | @destroyGlobal k a hk =>
      have hout := hs.letOut .abandoned k (b := none) rfl
      show (Custody.ofTable GlobalRef.obj _ _ (endings _ (_ ++ abandoned))).Sound
      rw [endings_abandoned]
      exact hout
  | newLocal | newLocalOf | newLocalFrom | assignLocalSelf | assignLocal | resetLocal
    | destroyLocal => exact hs

/-! ## Runs -/

section Runs

variable [DecidableEq E] [DecidableEq R]

/-- What becomes of wrappers as long as no assertion fails. -/
def system : Lts (Wrappers ι κ E R) (Op ι κ E R) where
  init s := s = start
  step s op s' := s.exec op = .ok s'

/-- The reference the wrapper at `k` has. -/
def globalAt (s : Wrappers ι κ E R) (k : κ) : Option R := (s.globals k).bind GlobalRef.obj

/-- In the run `w`, the wrapper at `k` was given `r`, and `reset` was not called on it since. -/
def NotReset (w : List (Op ι κ E R)) (k : κ) (r : R) : Prop :=
  ∃ w₁ op w₂ t t', w = w₁ ++ op :: w₂ ∧ system.Run start w₁ t ∧ system.step t op t' ∧
    t.globalAt k ≠ some r ∧ t'.globalAt k = some r ∧ ∀ env, .resetGlobal k env ∉ w₂

/-- In the run `w`, a wrapper was destroyed while it had `r`, without `reset`. -/
def Abandoned (w : List (Op ι κ E R)) (r : R) : Prop :=
  ∃ w₁ k w₂ t, w = w₁ ++ .destroyGlobal k :: w₂ ∧ system.Run start w₁ t ∧
    t.globalAt k = some r ∧ NotReset w₁ k r

variable {w : List (Op ι κ E R)} {s s' : Wrappers ι κ E R} {op : Op ι κ E R} {r : R}

/-- A wrapper that was reset has nothing. -/
theorem globalAt_resetGlobal {k : κ} {env : E} (h : system.step s (.resetGlobal k env) s') :
    s'.globalAt k = none := by
  cases effect_of_exec h with
  | resetGlobal hk =>
      change (Function.update s.globals k (some .empty) k).bind GlobalRef.obj = none
      rw [Function.update_self]
      rfl

/-- What a wrapper has it was given, and it was not reset since. -/
theorem notReset_of_run (h : system.Run start w s) {k : κ} (hr : s.globalAt k = some r) :
    NotReset w k r := by
  refine h.history (P := fun w s ↦ s.globalAt k = some r → NotReset w k r) (by rintro ⟨⟩) ?_ hr
  intro w t op t' hrun hP hstep hr
  by_cases hold : t.globalAt k = some r
  · obtain ⟨w₁, op₁, w₂, u, u', rfl, hu, hu', hne, he, hnot⟩ := hP hold
    refine ⟨w₁, op₁, w₂ ++ [op], u, u', by simp, hu, hu', hne, he, fun env hmem ↦ ?_⟩
    rcases List.mem_append.mp hmem with hmem | hmem
    · exact hnot env hmem
    · obtain rfl := List.mem_singleton.mp hmem
      rw [globalAt_resetGlobal hstep] at hr
      cases hr
  · exact ⟨w, op, [], t, t', rfl, hrun, hstep, hold, hr, nofun⟩

theorem Abandoned.snoc (h : Abandoned w r) (op : Op ι κ E R) : Abandoned (w ++ [op]) r := by
  obtain ⟨w₁, k, w₂, t, rfl, h⟩ := h
  exact ⟨w₁, k, w₂ ++ [op], t, by simp, h⟩

/-- What a step abandons was abandoned in the run that ends with it. -/
theorem abandoned_of_mem (h : system.Run start w s) (hr : r ∈ s.abandons op) :
    Abandoned (w ++ [op]) r := by
  cases op with
  | destroyGlobal k =>
      have hk : s.globalAt k = some r := Option.mem_toList.mp hr
      exact ⟨w, k, [], s, rfl, h, hk, notReset_of_run h hk⟩
  | newLocal | newLocalOf | newLocalFrom | assignLocal | resetLocal | destroyLocal | newGlobal
    | newGlobalOf | newGlobalFrom | assignGlobal | resetGlobal => cases hr

/-- The custody of both kinds of references is sound after any run. -/
theorem sound_of_run (h : system.Run start w s) :
    s.localCustody.Sound ∧
      ∃ abandoned, (s.globalCustody abandoned).Sound ∧ ∀ r ∈ abandoned, Abandoned w r := by
  refine h.history (P := fun w s ↦ s.localCustody.Sound ∧
    ∃ abandoned, (s.globalCustody abandoned).Sound ∧ ∀ r ∈ abandoned, Abandoned w r) ?_ ?_
  · have hglobal : ((start : Wrappers ι κ E R).globalCustody []).Sound := by
      have hempty : (start : Wrappers ι κ E R).globalCustody [] = .empty := by
        rw [globalCustody, Custody.ofTable, Custody.empty, Custody.mk.injEq]
        refine ⟨rfl, rfl, ?_⟩
        funext k
        cases k <;> rfl
      rw [hempty]
      exact Custody.sound_empty
    exact ⟨Custody.sound_empty, [], hglobal, by simp⟩
  · intro w t op t' hrun hP hstep
    obtain ⟨hlocal, abandoned, hglobal, hab⟩ := hP
    have heffect := effect_of_exec hstep
    refine ⟨sound_localCustody heffect hlocal, _, sound_globalCustody heffect hglobal, ?_⟩
    intro r hr
    rcases List.mem_append.mp hr with hr | hr
    · exact abandoned_of_mem hrun hr
    · exact (hab r hr).snoc op

/-- The wrappers own each reference exactly once, after the run `w`. -/
structure OwnOnce (w : List (Op ι κ E R)) (s : Wrappers ι κ E R) : Prop where
  /-- No reference is with two wrappers. -/
  local_inj : ∀ i j a b p, s.locals i = some a → s.locals j = some b →
    a.held = some p → b.held = some p → i = j
  global_inj : ∀ k l a b r, s.globals k = some a → s.globals l = some b →
    a.obj = some r → b.obj = some r → k = l
  /-- No reference is deleted twice. -/
  nodup_deletedLocals : s.vm.deletedLocals.Nodup
  nodup_deletedGlobals : s.vm.deletedGlobals.Nodup
  /-- When all local wrappers are gone, every reference handed in was deleted once. -/
  all_deleted : (∀ i, s.locals i = none) → ∀ p ∈ s.vm.handed, s.vm.deletedLocals.count p = 1
  /-- A global reference without a wrapper was deleted, or its wrapper was destroyed while it
  had it, without `reset`. -/
  abandoned : ∀ r ∈ s.vm.newGlobals, r ∉ s.vm.deletedGlobals →
    (∀ k a, s.globals k = some a → a.obj ≠ some r) → Abandoned w r
  /-- A reset deletes what the wrapper has and leaves it empty. -/
  resetLocal : ∀ i a, s.locals i = some a → ∃ s', s.exec (.resetLocal i) = .ok s' ∧
    s'.locals i = some .empty ∧ s'.vm.deletedLocals = a.held.toList ++ s.vm.deletedLocals
  resetGlobal : ∀ k a env, s.globals k = some a → ∃ s', s.exec (.resetGlobal k env) = .ok s' ∧
    s'.globals k = some .empty ∧ s'.vm.deletedGlobals = a.obj.toList ++ s.vm.deletedGlobals
  /-- A move over a local wrapper deletes what it had. -/
  assignLocal : ∀ i j a b p, i ≠ j → s.locals i = some a → s.locals j = some b →
    a.held = some p → ∃ s', s.exec (.assignLocal i j) = .ok s' ∧
      s'.locals i = some b ∧ s'.vm.deletedLocals = p :: s.vm.deletedLocals
  /-- A move over a global wrapper that has something aborts. -/
  assignGlobal : ∀ k l a b r, k ≠ l → s.globals k = some a → s.globals l = some b →
    a.obj = some r → s.exec (.assignGlobal k l) = .error .aborted

theorem ownOnce_of_run (h : system.Run start w s) : OwnOnce w s := by
  obtain ⟨hlocal, abandoned, hglobal, hab⟩ := sound_of_run h
  have hheld {i a} (hi : s.locals i = some a) : s.localCustody.held i = a.held :=
    congrArg (·.bind LocalRef.held) hi
  have hobj {k a} (hk : s.globals k = some a) : (s.globalCustody abandoned).held k = a.obj :=
    congrArg (·.bind GlobalRef.obj) hk
  constructor
  · intro i j a b p hi hj ha hb
    exact hlocal.held_inj ((hheld hi).trans ha) ((hheld hj).trans hb)
  · intro k l a b r hk hl ha hb
    exact hglobal.held_inj ((hobj hk).trans ha) ((hobj hl).trans hb)
  · exact hlocal.out_nodup ()
  · exact hglobal.out_nodup .deleted
  · intro hgone p hp
    rcases hlocal.covered hp with ⟨i, hi⟩ | ⟨k, hdel⟩
    · have hnone : s.localCustody.held i = none := congrArg (·.bind LocalRef.held) (hgone i)
      rw [hnone] at hi
      cases hi
    · exact List.count_eq_one_of_mem (hlocal.out_nodup ()) hdel
  · intro r hr hdel hnone
    rcases hglobal.covered hr with ⟨k, hk⟩ | ⟨k, hk⟩
    · obtain ⟨a, ha, hra⟩ := Option.bind_eq_some_iff.mp hk
      exact absurd hra (hnone k a ha)
    · cases k with
      | deleted => exact absurd hk hdel
      | abandoned => exact hab r hk
  · intro i a hi
    exact ⟨_, exec_resetLocal hi, Function.update_self .., rfl⟩
  · intro k a env hk
    exact ⟨_, exec_resetGlobal hk env, Function.update_self .., rfl⟩
  · intro i j a b p hij hi hj ha
    refine ⟨_, exec_assignLocal hij hi hj, ?_, ?_⟩
    · exact (Function.update_of_ne hij ..).trans (Function.update_self ..)
    · rw [ha]
      rfl
  · intro k l a b r hkl hk hl ha
    exact exec_assignGlobal_of_some hkl hk hl ha

/-- A local reference that is moved over another one; a global one that is moved and then
reset, and one that is abandoned. -/
theorem ownOnce_of_run_moves :
    ∃ s : Wrappers Nat Nat Unit Nat,
      OwnOnce [.newLocalOf 0 () (some 1), .newLocalOf 1 () (some 2), .assignLocal 0 1,
        .newGlobalOf 0 (some 2) (some 3), .newGlobalFrom 1 0, .newGlobalOf 2 (some 2) (some 4),
        .resetGlobal 1 (), .destroyGlobal 1, .destroyLocal 1, .destroyLocal 0, .destroyGlobal 0,
        .destroyGlobal 2] s ∧
      s.vm = ⟨[((), 2), ((), 1)], [((), 2), ((), 1)], [4, 3], [3]⟩ :=
  ⟨_, ownOnce_of_run (.cons rfl (.cons rfl (.cons rfl (.cons rfl (.cons rfl (.cons rfl
    (.cons rfl (.cons rfl (.cons rfl (.cons rfl (.cons rfl (.cons rfl (.nil _))))))))))))), rfl⟩

end Runs

end Wrappers

end Konative.Jni.RefWrapper
