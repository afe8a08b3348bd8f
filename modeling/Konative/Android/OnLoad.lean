import Konative.Jni.Discipline

/-!
# JNI_OnLoad

After the class is loaded, four steps remain: the buffer of the resources, the
registration of the native methods, the files directory, and the handoff to
`install`.  The first three may fail, and none is meant to disturb another.  That is so
unless a step starts with an exception pending, and two things leave one: a load that
promoted both references and did not check the second, and a `RegisterNatives` that is
not `JNI_OK`, where the check is not made at all.
-/

namespace Konative.Jni

/-! ## The files directory -/

/-- `FilesDirError`. -/
inductive FilesDirError
  | nullArguments
  | getFilesDirFailed
  | getAbsolutePathFailed
  | stringConversionFailed
deriving DecidableEq, Repr

/-- `get_files_dir_path`. -/
def getFilesDirPath (context : Option Ref) : Native (Except FilesDirError String) := do
  if context.isNone then
    pure (.error .nullArguments)
  else
  let filesDir ← callInstanceMethod context "getFilesDir" "()Ljava/io/File;" []
  localRef filesDir do
  if filesDir.isNone then
    pure (.error .getFilesDirFailed)
  else
  let absolutePath ← callInstanceMethod filesDir "getAbsolutePath" "()Ljava/lang/String;" []
  localRef absolutePath do
  if absolutePath.isNone then
    pure (.error .getAbsolutePathFailed)
  else
  let chars : Option String ← invoke .getFilesDirPath (.getStringUTFChars absolutePath)
  match ← checkAndClearException, chars with
  | false, some result =>
      invoke .getFilesDirPath (.releaseStringUTFChars absolutePath result)
      pure (.ok result)
  | _, _ => pure (.error .stringConversionFailed)

end Konative.Jni

namespace Konative.Android

open Jni

/-! ## The steps -/

/-- An embedded blob: where it is, what it is, and the SHA-256 it was built with. -/
structure Blob where
  address : Nat
  data : List UInt8
  expectedSha256 : List UInt8
deriving DecidableEq, Repr

/-- `verify_blob`, for the hash that the library computes. -/
def verifyBlob (hash256 : List UInt8 → List UInt8) (b : Blob) : Bool :=
  hash256 b.data == b.expectedSha256

/-- The native methods of the entry point. -/
def nativeMethods : List (String × String) :=
  [("nativeDispatchLifecycle", "(I)V"), ("nativeTick", "(F)V"), ("nativeGetTickCount", "()J"),
    ("nativeDispatchTouchDown", "(IFF)V"), ("nativeDispatchTouchMove", "(IFF)V"),
    ("nativeDispatchTouchUp", "(IFF)V"), ("nativeGetTouchCount", "()J"),
    ("nativeGetFollowerX", "()F"), ("nativeGetFollowerY", "()F"),
    ("nativeDispatchWindowResized", "(II)V"), ("nativeDispatchWindowFocusChanged", "(Z)V"),
    ("nativeDispatchKeyEvent", "(IZ)V")]

/-- `kEntryPointClass`. -/
def entryPointClass : String := "com.konative.generated.KonativeEntryPoint"

/-- Step 5.5, the buffer of the resources, if they are what was built. -/
def resourcesStep (verified : Bool) (b : Blob) : Native (Option Ref) := do
  if !verified then
    pure none
  else
    let resourcesBuffer : Option Ref ←
      invoke .jniOnLoad (.newDirectByteBuffer b.address b.data.length)
    if (← checkAndClearException) || resourcesBuffer.isNone then
      pure none
    else
      pure resourcesBuffer

/-- Step 5.6, whether the native methods are registered. -/
def registerNativesStep (clazz : Option Ref) : Native Bool := do
  let status : Bool ← invoke .jniOnLoad (.registerNatives clazz nativeMethods)
  -- `!= JNI_OK ||`: the check is made only of a success
  if !status then
    pure false
  else
    let pending ← checkAndClearException
    pure !pending

/-- The signature of `install`. -/
def installSignature : String := "(Landroid/app/Application;Ljava/nio/ByteBuffer;)V"

/-- Step 6, the handoff. -/
def installStep (clazz application resourcesBuffer : Option Ref) : Native Unit := do
  let install : Option MethodID ←
    invoke .jniOnLoad (.getStaticMethodID clazz "install" installSignature)
  if (← checkAndClearException) || install.isNone then
    pure ()
  else
    invoke .jniOnLoad (.callStaticVoidMethod clazz install [application, resourcesBuffer])
    let _ ← checkAndClearException
    pure ()

/-- The parts of `JNI_OnLoad` that call the environment. -/
inductive Step
  | load
  | resources
  | registerNatives
  | filesDir
  | install
deriving DecidableEq, Repr

/-- The number of a part, from which its handles are named. -/
def Step.part : Step → Nat
  | .load => 0
  | .resources => 1
  | .registerNatives => 2
  | .filesDir => 3
  | .install => 4

/-- What a launch of the process meets: its blobs, and how the environment behaves at the
calls of each step. -/
structure Launch where
  getEnv : Bool
  dex : Blob
  resources : Blob
  behaviour : Step → Nat → Behaviour

/-- A step, started with what was left pending. -/
def Launch.run {α : Type} (e : Launch) (st : Step) (pending : Bool) (p : Native α) : α × JNIEnv :=
  p.run JNIEnv.next (e.behaviour st) (.start st.part pending)

/-- What the steps came to, with their calls. -/
structure Handoff where
  load : LoadedDexClass × JNIEnv
  resourcesBuffer : Option Ref × JNIEnv
  registered : Bool × JNIEnv
  filesDir : Except FilesDirError String × JNIEnv
  installed : Unit × JNIEnv

/-- Steps 5.5 to 6, after a load. -/
def handoff (hash256 : List UInt8 → List UInt8) (e : Launch) (load : LoadedDexClass × JNIEnv) :
    Handoff :=
  let resourcesBuffer := e.run .resources load.2.pending
    (resourcesStep (verifyBlob hash256 e.resources) e.resources)
  let registered := e.run .registerNatives resourcesBuffer.2.pending
    (registerNativesStep load.1.clazz)
  let filesDir := e.run .filesDir registered.2.pending (getFilesDirPath load.1.application)
  let installed := e.run .install filesDir.2.pending
    (installStep load.1.clazz load.1.application resourcesBuffer.1)
  ⟨load, resourcesBuffer, registered, filesDir, installed⟩

/-- `JNI_OnLoad`.  There is a handoff where the environment is there, the dex is what was
built and the class loads. -/
def jniOnLoad (hash256 : List UInt8 → List UInt8) (e : Launch) : Option Handoff :=
  if !e.getEnv then none
  else if !verifyBlob hash256 e.dex then none
  else match e.run .load false
      (loadClassFromDex e.dex.address e.dex.data.length entryPointClass) with
    | (.error _, _) => none
    | (.ok loaded, env) => some (handoff hash256 e (loaded, env))

/-! ## Isolation -/

/-- A call other than `Exception*` was made while what was pending at the start still was. -/
def intrudes (pending : Bool) (calls : List Event) : Bool :=
  pending && (calls.takeWhile (·.call != .exceptionClear)).any (!·.call.isException)

/-- No step calls the environment while what an earlier one left is pending. -/
structure Handoff.Quiet (r : Handoff) : Prop where
  resourcesBuffer : intrudes r.load.2.pending r.resourcesBuffer.2.calls = false
  registered : intrudes r.resourcesBuffer.2.pending r.registered.2.calls = false
  filesDir : intrudes r.registered.2.pending r.filesDir.2.calls = false
  installed : intrudes r.filesDir.2.pending r.installed.2.calls = false

/-- `install` is looked up, and where it is found it is called with the application and the
buffer, if there is one. -/
structure Handoff.Installs (r : Handoff) (e : Launch) : Prop where
  lookup : ⟨.jniOnLoad, .getStaticMethodID r.load.1.clazz "install" installSignature⟩ ∈
    r.installed.2.calls.map (·.toRequest)
  call : (e.behaviour .install 0).ok = true → (e.behaviour .install 0).raises = false →
    ∃ install, ⟨.jniOnLoad, .callStaticVoidMethod r.load.1.clazz (some install)
      [r.load.1.application, r.resourcesBuffer.1]⟩ ∈ r.installed.2.calls.map (·.toRequest)

/-- Two launches whose loads went alike: a step that meets the same comes to the same by the
same calls, whatever the others meet. -/
structure Isolated (e e' : Launch) (r r' : Handoff) : Prop where
  resourcesBuffer : e.resources = e'.resources →
    e.behaviour .resources = e'.behaviour .resources → r.resourcesBuffer = r'.resourcesBuffer
  registered : e.behaviour .registerNatives = e'.behaviour .registerNatives →
    r.registered = r'.registered
  filesDir : e.behaviour .filesDir = e'.behaviour .filesDir → r.filesDir = r'.filesDir
  quiet : r.Quiet ∧ r'.Quiet
  installs : r.Installs e ∧ r'.Installs e'

/-- The load left an exception pending, or `RegisterNatives` failed and threw. -/
def Launch.Leaks (e : Launch) (r : Handoff) : Prop :=
  r.load.2.pending = true ∨ ((e.behaviour .registerNatives 0).ok = false ∧
    (e.behaviour .registerNatives 0).raises = true)

/-! ## The steps, one by one -/

section Steps

open JNIEnv (next)

variable {α : Type} {part : Nat} {pending : Bool} {σ : Nat → Behaviour}

/-- The first call is among the calls. -/
theorem first_mem (f : Caller) (c : Call) (k : c.kind.Answer → Native α) (s : JNIEnv) :
    s.event ⟨f, c⟩ (σ 0) ∈ ((invoke f c >>= k).run next σ s).2.calls :=
  (calls_extend (k (next s ⟨f, c⟩ (σ 0)).1) (fun n ↦ σ (n + 1)) (next s ⟨f, c⟩ (σ 0)).2).subset
    (List.mem_append_right _ (List.mem_singleton.mpr rfl))

/-- A step that starts with a call intrudes on what is pending. -/
theorem intrudes_first (f : Caller) (c : Call) (hc : c.isException = false)
    (k : c.kind.Answer → Native α) :
    intrudes true ((invoke f c >>= k).run next σ (.start part true)).2.calls = true := by
  obtain ⟨rest, hrest⟩ := calls_extend (k (next (.start part true) ⟨f, c⟩ (σ 0)).1)
    (fun n ↦ σ (n + 1)) (next (.start part true) ⟨f, c⟩ (σ 0)).2
  rw [run_invoke, ← hrest]
  change (((([] : List Event) ++ [JNIEnv.event _ ⟨f, c⟩ (σ 0)]) ++ rest).takeWhile
    (·.call != .exceptionClear)).any (!·.call.isException) = true
  have hne : (c != .exceptionClear) = true := by
    cases c <;> first | rfl | cases hc
  rw [List.nil_append, List.singleton_append, List.takeWhile_cons_of_pos, List.any_cons]
  · change (!c.isException || _) = true
    rw [hc]
    rfl
  · exact hne

/-- The buffer is not asked for where the resources are not what was built. -/
theorem resourcesStep_intrudes (verified : Bool) (b : Blob) :
    intrudes pending ((resourcesStep verified b).run next σ (.start part pending)).2.calls =
      (pending && verified) := by
  cases pending with
  | false => rfl
  | true =>
      cases verified with
      | false => rfl
      | true => exact intrudes_first _ (.newDirectByteBuffer b.address b.data.length) rfl _

/-- What was pending still is where the buffer is not asked for. -/
theorem resourcesStep_pending (verified : Bool) (b : Blob) :
    ((resourcesStep verified b).run next σ (.start part pending)).2.pending =
      (pending && !verified) := by
  cases verified with
  | false => exact (Bool.and_true _).symm
  | true =>
      have h : Prog.Triple next (fun _ ↦ True) (resourcesStep true b)
          fun _ s ↦ s.pending = false := by
        refine triple_call _ _ fun (buffer : Option Ref) ↦ triple_settle fun _ ↦ ?_
        exact .ite (fun _ ↦ .pure fun _ hs ↦ hs) fun _ ↦ .pure fun _ hs ↦ hs
      rw [Bool.not_true, Bool.and_false]
      exact (h _ trivial).run σ

theorem registerNativesStep_intrudes (clazz : Option Ref) :
    intrudes pending ((registerNativesStep clazz).run next σ (.start part pending)).2.calls =
      pending := by
  cases pending with
  | false => rfl
  | true => exact intrudes_first _ (.registerNatives clazz nativeMethods) rfl _

/-- What `RegisterNatives` leaves pending is cleared only if it is `JNI_OK`. -/
theorem registerNativesStep_pending (clazz : Option Ref) :
    ((registerNativesStep clazz).run next σ (.start part pending)).2.pending =
      (!(σ 0).ok && (pending || (σ 0).raises)) := by
  change ((if !(σ 0).ok then pure false else checkAndClearException >>= fun b ↦ pure !b :
    Native Bool).run next _ _).2.pending = _
  cases (σ 0).ok with
  | false => rfl
  | true =>
      have h := triple_settle (Q := fun (_ : Bool) s ↦ s.pending = false) (k := fun b ↦ pure !b)
        fun _ ↦ .pure fun _ hs ↦ hs
      exact (h _ trivial).run _

theorem getFilesDirPath_pending (context : Option Ref) :
    ((getFilesDirPath context).run next σ (.start part false)).2.pending = false := by
  have h : Prog.Triple next (·.pending = false) (getFilesDirPath context)
      fun _ s ↦ s.pending = false := by
    refine .ite (fun _ ↦ .pure fun _ hs ↦ hs) fun _ ↦ ?_
    refine (settles_callInstanceMethod _ _ _ _).bind fun filesDir ↦
      triple_localRef (triple_reset _ _) ?_
    refine .ite (fun _ ↦ .pure fun _ hs ↦ hs) fun _ ↦ ?_
    refine (settles_callInstanceMethod _ _ _ _).bind fun absolutePath ↦
      triple_localRef (triple_reset _ _) ?_
    refine .ite (fun _ ↦ .pure fun _ hs ↦ hs) fun _ ↦ ?_
    refine triple_call _ _ fun (chars : Option String) ↦ triple_settle fun b ↦ ?_
    cases b with
    | true => exact .pure fun _ hs ↦ hs
    | false =>
        cases chars with
        | none => exact .pure fun _ hs ↦ hs
        | some result =>
            refine Prog.Triple.bind (Q := fun _ s ↦ s.pending = false) (fun s hs _ ↦ ?_) fun _ ↦
              .pure fun _ hs ↦ hs
            exact (hs : s.pending = false)
  exact (h _ rfl).run σ

theorem getFilesDirPath_intrudes (context : Option Ref) :
    intrudes pending ((getFilesDirPath context).run next σ (.start part pending)).2.calls =
      (pending && context.isSome) := by
  cases pending with
  | false => rfl
  | true =>
      cases context with
      | none => rfl
      | some context => exact intrudes_first _ (.getObjectClass (some context)) rfl _

theorem installStep_intrudes (clazz application buffer : Option Ref) :
    intrudes pending ((installStep clazz application buffer).run next σ
      (.start part pending)).2.calls = pending := by
  cases pending with
  | false => rfl
  | true => exact intrudes_first _ (.getStaticMethodID clazz "install" installSignature) rfl _

/-- Where `install` is found, it is called. -/
theorem installStep_call {clazz application buffer : Option Ref} (hok : (σ 0).ok = true)
    (hr : (σ 0).raises = false) :
    ∃ install, ⟨.jniOnLoad, .callStaticVoidMethod clazz (some install) [application, buffer]⟩ ∈
      ((installStep clazz application buffer).run next σ (.start part false)).2.calls.map
        (·.toRequest) := by
  -- the lookup, the check, and then the call
  let s := (next (.start part false) ⟨.jniOnLoad, .getStaticMethodID clazz "install"
    installSignature⟩ (σ 0)).2
  have hs : s.pending = false := hr
  let k : Option MethodID → Bool → Native Unit := fun install b ↦
    if b || install.isNone then pure ()
    else
      invoke .jniOnLoad (.callStaticVoidMethod clazz install [application, buffer]) >>= fun _ ↦
        checkAndClearException >>= fun _ ↦ pure ()
  have hm : (if (σ 0).ok then some (⟨part, 0⟩ : Handle) else none) = some ⟨part, 0⟩ := if_pos hok
  change ∃ install, _ ∈ ((checkAndClearException >>= k (if (σ 0).ok then some ⟨part, 0⟩ else none)
    ).run next (fun n ↦ σ (n + 1)) s).2.calls.map (·.toRequest)
  rw [hm, run_check hs]
  exact ⟨⟨part, 0⟩, List.mem_map_of_mem (first_mem .jniOnLoad
    (.callStaticVoidMethod clazz (some ⟨part, 0⟩) [application, buffer])
    (fun _ ↦ checkAndClearException >>= fun _ ↦ pure ()) _)⟩

end Steps

/-! ## The handoff -/

variable {hash256 : List UInt8 → List UInt8} {e e' : Launch} {r r' : Handoff}

theorem eq_handoff (h : jniOnLoad hash256 e = some r) : r = handoff hash256 e r.load := by
  unfold jniOnLoad at h
  split at h
  · cases h
  · split at h
    · cases h
    · split at h
      · cases h
      · obtain rfl := Option.some.inj h
        rfl

/-- Where nothing leaks, no step leaves anything pending. -/
theorem pending_of_not_leaks (load : LoadedDexClass × JNIEnv)
    (h : ¬ e.Leaks (handoff hash256 e load)) :
    load.2.pending = false ∧ (handoff hash256 e load).resourcesBuffer.2.pending = false ∧
      (handoff hash256 e load).registered.2.pending = false ∧
      (handoff hash256 e load).filesDir.2.pending = false := by
  obtain ⟨hload, hreg⟩ := not_or.mp h
  have p₀ : load.2.pending = false := Bool.not_eq_true _ ▸ hload
  have p₁ : (handoff hash256 e load).resourcesBuffer.2.pending = false := by
    apply (resourcesStep_pending ..).trans
    rw [p₀, Bool.false_and]
  have p₂ : (handoff hash256 e load).registered.2.pending = false := by
    apply (registerNativesStep_pending _).trans
    change (_ && ((handoff hash256 e load).resourcesBuffer.2.pending || _)) = false
    rw [p₁, Bool.false_or]
    by_contra hne
    exact hreg (by simpa using hne)
  refine ⟨p₀, p₁, p₂, ?_⟩
  change ((getFilesDirPath load.1.application).run JNIEnv.next _
    (.start _ (handoff hash256 e load).registered.2.pending)).2.pending = _
  rw [p₂]
  exact getFilesDirPath_pending _

/-- The steps are quiet exactly when nothing leaks. -/
theorem quiet_iff (load : LoadedDexClass × JNIEnv) :
    (handoff hash256 e load).Quiet ↔ ¬ e.Leaks (handoff hash256 e load) := by
  constructor
  · generalize hr : handoff hash256 e load = r
    have i₁ : intrudes r.load.2.pending r.resourcesBuffer.2.calls =
        (r.load.2.pending && verifyBlob hash256 e.resources) := hr ▸ resourcesStep_intrudes ..
    have p₁ : r.resourcesBuffer.2.pending =
        (r.load.2.pending && !verifyBlob hash256 e.resources) := hr ▸ resourcesStep_pending ..
    have i₂ : intrudes r.resourcesBuffer.2.pending r.registered.2.calls =
        r.resourcesBuffer.2.pending := hr ▸ registerNativesStep_intrudes _
    have p₂ : r.registered.2.pending = (!(e.behaviour .registerNatives 0).ok &&
        (r.resourcesBuffer.2.pending || (e.behaviour .registerNatives 0).raises)) :=
      hr ▸ registerNativesStep_pending _
    have i₃ : intrudes r.registered.2.pending r.filesDir.2.calls =
        (r.registered.2.pending && r.load.1.application.isSome) := hr ▸ getFilesDirPath_intrudes _
    have i₄ : intrudes r.filesDir.2.pending r.installed.2.calls = r.filesDir.2.pending :=
      hr ▸ installStep_intrudes ..
    rintro ⟨hq₁, hq₂, hq₃, hq₄⟩ (hp | ⟨hok, hraises⟩)
    · -- the first call after the load intrudes
      rw [i₁, hp, Bool.true_and] at hq₁
      rw [hp, hq₁] at p₁
      rw [i₂, p₁] at hq₂
      cases hq₂
    · -- the first call after the registration intrudes
      have p₂ : r.registered.2.pending = true := by rw [p₂, hok, hraises, Bool.or_true]; rfl
      rw [i₃, p₂, Bool.true_and] at hq₃
      have happ : r.load.1.application = none := by simpa using hq₃
      have p₃ : r.filesDir.2.pending = r.registered.2.pending := by
        subst hr
        change ((getFilesDirPath load.1.application).run JNIEnv.next _ _).2.pending = _
        rw [show load.1.application = none from happ]
        rfl
      rw [i₄, p₃, p₂] at hq₄
      cases hq₄
  · intro h
    obtain ⟨p₀, p₁, p₂, p₃⟩ := pending_of_not_leaks load h
    refine ⟨?_, ?_, ?_, ?_⟩
    · change intrudes load.2.pending _ = false
      rw [p₀]
      rfl
    · rw [p₁]; rfl
    · rw [p₂]; rfl
    · rw [p₃]; rfl

/-- Where nothing leaks, `install` is looked up and called. -/
theorem installs_of_not_leaks (load : LoadedDexClass × JNIEnv)
    (h : ¬ e.Leaks (handoff hash256 e load)) : (handoff hash256 e load).Installs e where
  lookup := List.mem_map_of_mem (first_mem .jniOnLoad
    (.getStaticMethodID load.1.clazz "install" installSignature) _ _)
  call hok hr := by
    have p₃ := (pending_of_not_leaks load h).2.2.2
    change ∃ install, _ ∈ ((installStep load.1.clazz load.1.application
      (handoff hash256 e load).resourcesBuffer.1).run JNIEnv.next _
        (.start _ (handoff hash256 e load).filesDir.2.pending)).2.calls.map (·.toRequest)
    rw [p₃]
    exact installStep_call hok hr

/-- Two launches whose loads went alike are isolated if and only if neither leaks: the load
left nothing pending, and `RegisterNatives` did not both fail and throw. -/
theorem isolated_iff (hash256 : List UInt8 → List UInt8) (e e' : Launch) (r r' : Handoff)
    (h : jniOnLoad hash256 e = some r) (h' : jniOnLoad hash256 e' = some r')
    (hload : r.load = r'.load) :
    Isolated e e' r r' ↔ ¬ e.Leaks r ∧ ¬ e'.Leaks r' := by
  have hr := eq_handoff h
  have hr' := eq_handoff h'
  rw [← hload] at hr'
  generalize r.load = load at hr hr'
  subst hr hr'
  refine ⟨fun hi ↦ ⟨(quiet_iff load).mp hi.quiet.1, (quiet_iff load).mp hi.quiet.2⟩, ?_⟩
  rintro ⟨hl, hl'⟩
  obtain ⟨-, p₁, p₂, -⟩ := pending_of_not_leaks load hl
  obtain ⟨-, p₁', p₂', -⟩ := pending_of_not_leaks load hl'
  refine ⟨fun hres hb ↦ ?_, fun hb ↦ ?_, fun hb ↦ ?_, ⟨(quiet_iff load).mpr hl,
    (quiet_iff load).mpr hl'⟩, installs_of_not_leaks load hl, installs_of_not_leaks load hl'⟩
  · change e.run .resources load.2.pending (resourcesStep (verifyBlob hash256 e.resources) _) =
      e'.run .resources load.2.pending (resourcesStep (verifyBlob hash256 e'.resources) _)
    rw [Launch.run, Launch.run, hres, hb]
  · change e.run .registerNatives (handoff hash256 e load).resourcesBuffer.2.pending _ =
      e'.run .registerNatives (handoff hash256 e' load).resourcesBuffer.2.pending _
    rw [p₁, p₁', Launch.run, Launch.run, hb]
  · change e.run .filesDir (handoff hash256 e load).registered.2.pending _ =
      e'.run .filesDir (handoff hash256 e' load).registered.2.pending _
    rw [p₂, p₂', Launch.run, Launch.run, hb]

/-- The SHA-256 of no bytes. -/
def emptySha256 : List UInt8 :=
  [0xe3, 0xb0, 0xc4, 0x42, 0x98, 0xfc, 0x1c, 0x14, 0x9a, 0xfb, 0xf4, 0xc8, 0x99, 0x6f, 0xb9, 0x24,
    0x27, 0xae, 0x41, 0xe4, 0x64, 0x9b, 0x93, 0x4c, 0xa4, 0x95, 0x99, 0x1b, 0x78, 0x52, 0xb8, 0x55]

/-- A launch where every call succeeds, but for `RegisterNatives`, which does `x`. -/
def registering (x : Behaviour) : Launch where
  getEnv := true
  dex := ⟨0, [], emptySha256⟩
  resources := ⟨0, [], emptySha256⟩
  behaviour st _ := if st = .registerNatives then x else ⟨true, false, "/data"⟩

/-- A `RegisterNatives` that fails and throws nothing changes nothing else. -/
theorem isolated_registering : ∃ r r',
    jniOnLoad (fun _ ↦ emptySha256) (registering ⟨true, false, ""⟩) = some r ∧
    jniOnLoad (fun _ ↦ emptySha256) (registering ⟨false, false, ""⟩) = some r' ∧
    r.load = r'.load ∧
    Isolated (registering ⟨true, false, ""⟩) (registering ⟨false, false, ""⟩) r r' := by
  refine ⟨_, _, rfl, rfl, rfl, ?_⟩
  refine (isolated_iff (fun _ ↦ emptySha256) (registering ⟨true, false, ""⟩)
    (registering ⟨false, false, ""⟩) _ _ rfl rfl rfl).mpr ⟨?_, ?_⟩
  · rintro (h | ⟨h, -⟩)
    · exact absurd h (by decide)
    · cases h
  · rintro (h | ⟨-, h⟩)
    · exact absurd h (by decide)
    · cases h

/-- One that throws is not cleared: the files directory is asked for with the exception
pending, and is taken to have failed. -/
theorem registering_not_isolated : ∃ r r',
    jniOnLoad (fun _ ↦ emptySha256) (registering ⟨true, false, ""⟩) = some r ∧
    jniOnLoad (fun _ ↦ emptySha256) (registering ⟨false, true, ""⟩) = some r' ∧
    r.load = r'.load ∧ r.filesDir.1 = .ok "/data" ∧ r'.filesDir.1 = .error .getFilesDirFailed ∧
    ¬ Isolated (registering ⟨true, false, ""⟩) (registering ⟨false, true, ""⟩) r r' := by
  refine ⟨_, _, rfl, rfl, rfl, rfl, rfl, fun hi ↦ ?_⟩
  have h : Except.error FilesDirError.getFilesDirFailed = Except.ok "/data" :=
    (congrArg Prod.fst (hi.filesDir rfl)).symm
  cases h

end Konative.Android
