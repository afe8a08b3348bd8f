import Konative.Jni.DexLoader
import Mathlib.Algebra.Order.Group.Multiset

/-!
# Who owns the references

At every point of a run the local references acquired are those deleted and those
still held, and the same of the global ones.  `Owns` says what a program is handed and
what it hands back in these terms; it is framed, so it composes along the program, and
a `LocalRef` gives its reference back where its scope ends.
-/

namespace Konative.Jni

open JNIEnv (next)

/-- The reference, if it is one. -/
def refs : Option Ref → Multiset Ref
  | some r => {r}
  | none => 0

/-- The local references `h` and the global references `k` are held, and no method
called so far was null. -/
structure Ledger (h k : Multiset Ref) (s : JNIEnv) : Prop where
  locals : (acquired s.calls : Multiset Ref) = deleted s.calls + h
  globals : (globalAcquired s.calls : Multiset Ref) = globalDeleted s.calls + k
  methods : ∀ e ∈ s.calls, e.call.nullMethod = false

/-- Handed the local references `l₀` and the global ones `g₀`, the program hands back
`l` and `g`. -/
def Owns {α : Type} (l₀ g₀ : Multiset Ref) (p : Native α) (l g : α → Multiset Ref) : Prop :=
  ∀ h k, Prog.Triple next (Ledger (h + l₀) (k + g₀)) p fun a ↦ Ledger (h + l a) (k + g a)

/-- The references in an answer. -/
def Kind.refs : (k : Kind) → k.Answer → Multiset Ref
  | .handle, a => Jni.refs a
  | .check, _ | .void, _ | .voidMethod, _ | .status, _ | .chars, _ => 0

/-! ## One call -/

private theorem coe_filterMap_snoc {α β : Type} (f : α → Option β) (l : List α) (a : α) :
    ((l ++ [a]).filterMap f : Multiset β) = l.filterMap f + (f a).toList := by
  rw [List.filterMap_append, ← Multiset.coe_add]
  cases h : f a <;> simp [h]

/-- How a call changes the ledger. -/
theorem Ledger.snoc {h k h' k' : Multiset Ref} {s : JNIEnv} (hs : Ledger h k s) (r : Request)
    (x : Behaviour) (hm : r.call.nullMethod = false)
    (hl : ((s.event r x).acquires.toList : Multiset Ref) + h = r.call.deletes.toList + h')
    (hg : ((s.event r x).acquiresGlobal.toList : Multiset Ref) + k =
      r.call.deletesGlobal.toList + k') :
    Ledger h' k' (next s r x).2 where
  locals := by
    rw [JNIEnv.next_calls, acquired, deleted, coe_filterMap_snoc, coe_filterMap_snoc]
    calc (acquired s.calls : Multiset Ref) + (s.event r x).acquires.toList
        = deleted s.calls + ((s.event r x).acquires.toList + h) := by
          rw [hs.locals, add_assoc, add_comm h]
      _ = deleted s.calls + r.call.deletes.toList + h' := by rw [hl, add_assoc]
  globals := by
    rw [JNIEnv.next_calls, globalAcquired, globalDeleted, coe_filterMap_snoc, coe_filterMap_snoc]
    calc (globalAcquired s.calls : Multiset Ref) + (s.event r x).acquiresGlobal.toList
        = globalDeleted s.calls + ((s.event r x).acquiresGlobal.toList + k) := by
          rw [hs.globals, add_assoc, add_comm k]
      _ = globalDeleted s.calls + r.call.deletesGlobal.toList + k' := by rw [hg, add_assoc]
  methods e he := by
    rcases List.mem_append.mp he with he | he
    · exact hs.methods e he
    · obtain rfl := List.mem_singleton.mp he
      exact hm

/-- The references that a call hands back. -/
def Call.locals (c : Call) (a : c.kind.Answer) : Multiset Ref :=
  bif c.makesLocal then c.kind.refs a else 0

/-- The global references that a call hands back. -/
def Call.globals (c : Call) (a : c.kind.Answer) : Multiset Ref :=
  bif c.makesGlobal then c.kind.refs a else 0

variable {α β : Type} {l₀ g₀ l₁ g₁ : Multiset Ref} {p : Native α} {f : α → Native β}
  {l g : α → Multiset Ref} {l' g' : β → Multiset Ref}

/-- A call that deletes nothing hands back the reference it makes. -/
theorem owns_invoke (f : Caller) (c : Call) (hm : c.nullMethod = false) (hl : c.deletes = none)
    (hg : c.deletesGlobal = none) :
    Owns l₀ g₀ (invoke f c) (l₀ + c.locals ·) (g₀ + c.globals ·) := by
  intro h k s hs x
  refine hs.snoc ⟨f, c⟩ x hm ?_ ?_
  · have hc : ((s.event ⟨f, c⟩ x).acquires.toList : Multiset Ref) =
        c.locals (c.kind.answer s.pending ⟨s.part, s.calls.length⟩ x) := by
      obtain ⟨ok, _, _⟩ := x
      cases c <;> first | rfl | (cases ok <;> rfl)
    rw [hc, hl, Option.toList_none, Multiset.coe_nil, zero_add, add_comm, add_assoc]
    rfl
  · have hc : ((s.event ⟨f, c⟩ x).acquiresGlobal.toList : Multiset Ref) =
        c.globals (c.kind.answer s.pending ⟨s.part, s.calls.length⟩ x) := by
      obtain ⟨ok, _, _⟩ := x
      cases c <;> first | rfl | (cases ok <;> rfl)
    rw [hc, hg, Option.toList_none, Multiset.coe_nil, zero_add, add_comm, add_assoc]
    rfl

/-- A `LocalRef` that is reset gives its reference up. -/
theorem owns_resetLocal (r : Option Ref) :
    Owns (l₀ + refs r) g₀ (resetLocal r) (fun _ ↦ l₀) fun _ ↦ g₀ := by
  intro h k
  cases r with
  | none => exact .pure fun s hs ↦ by simpa [refs] using hs
  | some r =>
      intro s hs x
      refine hs.snoc ⟨.localRef, .deleteLocalRef r⟩ x rfl ?_ rfl
      change (0 : Multiset Ref) + (h + (l₀ + {r})) = {r} + (h + l₀)
      rw [zero_add, ← add_assoc, add_comm]

/-- A `GlobalRef` that is reset gives its reference up. -/
theorem owns_resetGlobal (f : Caller) (r : Option Ref) :
    Owns l₀ (g₀ + refs r) (resetGlobal f r) (fun _ ↦ l₀) fun _ ↦ g₀ := by
  intro h k
  cases r with
  | none => exact .pure fun s hs ↦ by simpa [refs] using hs
  | some r =>
      intro s hs x
      refine hs.snoc ⟨f, .deleteGlobalRef r⟩ x rfl rfl ?_
      change (0 : Multiset Ref) + (k + (g₀ + {r})) = {r} + (k + g₀)
      rw [zero_add, ← add_assoc, add_comm]

namespace Owns

theorem pure {a : α} (hl : l₀ = l a) (hg : g₀ = g a) : Owns l₀ g₀ (pure a) l g :=
  fun h k ↦ .pure fun s hs ↦ by rwa [hl, hg] at hs

theorem bind (hp : Owns l₀ g₀ p l g) (hf : ∀ a, Owns (l a) (g a) (f a) l' g') :
    Owns l₀ g₀ (p >>= f) l' g' :=
  fun h k ↦ (hp h k).bind fun a ↦ hf a h k

theorem ite {c : Prop} [Decidable c] {p' : Native α} (h : c → Owns l₀ g₀ p l g)
    (h' : ¬ c → Owns l₀ g₀ p' l g) : Owns l₀ g₀ (if c then p else p') l g :=
  fun i k ↦ .ite (fun hc ↦ h hc i k) fun hc ↦ h' hc i k

/-- A call that hands back no reference. -/
theorem call (f : Caller) (c : Call) (hm : c.nullMethod = false) (hd : c.deletes = none)
    (hd' : c.deletesGlobal = none) (hl : c.makesLocal = false) (hg : c.makesGlobal = false)
    {k : c.kind.Answer → Native β} (hk : ∀ a, Owns l₀ g₀ (k a) l' g') :
    Owns l₀ g₀ (invoke f c >>= k) l' g' := by
  refine (owns_invoke f c hm hd hd').bind fun a ↦ ?_
  rw [Call.locals, Call.globals, hl, hg, cond_false, add_zero, add_zero]
  exact hk a

/-- A call that hands back a local reference. -/
theorem acquire (f : Caller) (c : Call) (hm : c.nullMethod = false) (hd : c.deletes = none)
    (hd' : c.deletesGlobal = none) (hl : c.makesLocal = true) (hg : c.makesGlobal = false)
    {k : c.kind.Answer → Native β} (hk : ∀ a, Owns (l₀ + c.kind.refs a) g₀ (k a) l' g') :
    Owns l₀ g₀ (invoke f c >>= k) l' g' := by
  refine (owns_invoke f c hm hd hd').bind fun a ↦ ?_
  rw [Call.locals, Call.globals, hl, hg, cond_true, cond_false, add_zero]
  exact hk a

/-- A `LocalRef` holds its reference to the end of its scope. -/
theorem localRef {r : Option Ref} (hp : Owns l₀ g₀ p l g) :
    Owns (l₀ + refs r) g₀ (localRef r p) l g := by
  intro h k
  refine Prog.Triple.bind (Q := fun a ↦ Ledger (h + (l a + refs r)) (k + g a)) ?_ fun a ↦ ?_
  · refine (hp (h + refs r) k).pre (fun s hs ↦ ?_) |>.post fun a s hs ↦ ?_
    · rwa [add_assoc, add_comm (refs r)]
    · rwa [add_assoc, add_comm (refs r)] at hs
  · exact (owns_resetLocal r h k).bind fun _ ↦ .pure fun s hs ↦ hs

theorem checkAndClear {k : Bool → Native β} (hk : ∀ b, Owns l₀ g₀ (k b) l' g') :
    Owns l₀ g₀ (checkAndClearException >>= k) l' g' := by
  refine bind (l := fun _ ↦ l₀) (g := fun _ ↦ g₀) ?_ hk
  refine call _ _ rfl rfl rfl rfl rfl fun (pending : Bool) ↦ .ite (fun _ ↦ ?_) fun _ ↦ .pure rfl rfl
  exact call _ _ rfl rfl rfl rfl rfl fun _ ↦ call _ _ rfl rfl rfl rfl rfl fun _ ↦ .pure rfl rfl

end Owns

/-! ## The helpers and the loader -/

private theorem not_isNone {b : Bool} {r : Option Handle} (h : ¬ (b || r.isNone) = true) :
    r.isNone = false := by
  rw [Bool.or_eq_true, not_or, Bool.not_eq_true, Bool.not_eq_true] at h
  exact h.2

theorem owns_callStaticMethod (clazz : Option Ref) (name signature : String)
    (args : List (Option Ref)) :
    Owns l₀ g₀ (callStaticMethod clazz name signature args) (l₀ + refs ·) fun _ ↦ g₀ := by
  refine .ite (fun _ ↦ .pure (add_zero _).symm rfl) fun _ ↦ ?_
  refine .call _ _ rfl rfl rfl rfl rfl fun (method : Option MethodID) ↦ .checkAndClear fun b ↦ ?_
  refine .ite (fun _ ↦ .pure (add_zero _).symm rfl) fun hm ↦ ?_
  refine .acquire _ _ (by exact not_isNone hm) rfl rfl rfl rfl fun (result : Option Ref) ↦ ?_
  exact .checkAndClear fun _ ↦ .pure rfl rfl

theorem owns_callInstanceMethod (obj : Option Ref) (name signature : String)
    (args : List (Option Ref)) :
    Owns l₀ g₀ (callInstanceMethod obj name signature args) (l₀ + refs ·) fun _ ↦ g₀ := by
  refine .ite (fun _ ↦ .pure (add_zero _).symm rfl) fun _ ↦ ?_
  refine .acquire _ _ rfl rfl rfl rfl rfl fun (clazz : Option Ref) ↦ .checkAndClear fun b ↦ ?_
  refine .ite (fun _ ↦ ?_) fun _ ↦ ?_
  · exact (owns_resetLocal clazz).bind fun _ ↦ .pure (add_zero _).symm rfl
  refine .call _ _ rfl rfl rfl rfl rfl fun (method : Option MethodID) ↦ ?_
  refine (owns_resetLocal clazz).bind fun _ ↦ .checkAndClear fun b ↦ ?_
  refine .ite (fun _ ↦ .pure (add_zero _).symm rfl) fun hm ↦ ?_
  refine .acquire _ _ (by exact not_isNone hm) rfl rfl rfl rfl fun (result : Option Ref) ↦ ?_
  exact .checkAndClear fun _ ↦ .pure rfl rfl

private theorem owns_newLocalRef (f : Caller) (r : Option Ref) :
    Owns l₀ g₀ (invoke f (.newLocalRef r)) (l₀ + refs ·) fun _ ↦ g₀ :=
  .acquire _ _ rfl rfl rfl rfl rfl fun _ ↦ .pure rfl rfl

theorem owns_upgradeToResourceAwareLoader (bootstrapLoader dexLoaderClass : Option Ref)
    (dexLoaderCtor : Option MethodID) (dexBufferForUpgrade realParentLoader : Option Ref)
    (hc : dexLoaderCtor.isNone = false) :
    Owns l₀ g₀ (upgradeToResourceAwareLoader bootstrapLoader dexLoaderClass dexLoaderCtor
      dexBufferForUpgrade realParentLoader) (l₀ + refs ·) fun _ ↦ g₀ := by
  have fallback : Owns l₀ g₀ (invoke .upgradeToResourceAwareLoader (.newLocalRef bootstrapLoader))
      (l₀ + refs ·) fun _ ↦ g₀ := owns_newLocalRef _ _
  refine .acquire _ _ rfl rfl rfl rfl rfl fun (providerName : Option Ref) ↦ .localRef ?_
  refine .checkAndClear fun b ↦ .ite (fun _ ↦ fallback) fun _ ↦ ?_
  refine .acquire _ _ rfl rfl rfl rfl rfl fun (loaderClass : Option Ref) ↦ ?_
  refine .call _ _ rfl rfl rfl rfl rfl fun (loadClassMethod : Option MethodID) ↦ ?_
  refine (owns_resetLocal loaderClass).bind fun _ ↦ ?_
  refine .checkAndClear fun b ↦ .ite (fun _ ↦ fallback) fun hm ↦ ?_
  refine .acquire _ _ (by exact not_isNone hm) rfl rfl rfl rfl
    fun (providerClass : Option Ref) ↦ .localRef ?_
  refine .call _ _ rfl rfl rfl rfl rfl fun (pending : Bool) ↦ .ite (fun _ ↦ ?_) fun _ ↦ ?_
  · exact .call _ _ rfl rfl rfl rfl rfl fun _ ↦ fallback
  refine .ite (fun _ ↦ fallback) fun _ ↦ ?_
  refine .call _ _ rfl rfl rfl rfl rfl fun (providerCtor : Option MethodID) ↦ ?_
  refine .checkAndClear fun b ↦ .ite (fun _ ↦ fallback) fun hm ↦ ?_
  refine .acquire _ _ (by exact not_isNone hm) rfl rfl rfl rfl
    fun (providerInstance : Option Ref) ↦ .localRef ?_
  refine .checkAndClear fun b ↦ .ite (fun _ ↦ fallback) fun _ ↦ ?_
  refine .acquire _ _ (by exact hc) rfl rfl rfl rfl fun (loader : Option Ref) ↦ ?_
  exact .checkAndClear fun b ↦ .ite (fun _ ↦ .localRef fallback) fun _ ↦ .pure rfl rfl

/-- The global references that a load hands back. -/
def loadedRefs : Except DexLoadError LoadedDexClass → Multiset Ref
  | .ok loaded => refs loaded.clazz + refs loaded.application
  | .error _ => 0

theorem owns_globalRef (f : Caller) (r : Option Ref) :
    Owns l₀ g₀ (globalRef f r) (fun _ ↦ l₀) (g₀ + refs ·) := by
  cases r with
  | none => exact .pure rfl (add_zero _).symm
  | some r =>
      intro h k
      refine (owns_invoke f (.newGlobalRef (some r)) rfl rfl rfl h k).post fun a s hs ↦ ?_
      change Ledger (h + (l₀ + 0)) (k + (g₀ + refs a)) s at hs
      rwa [add_zero] at hs

theorem owns_promote (loadedObj application : Option Ref) :
    Owns l₀ g₀ (promote loadedObj application) (fun _ ↦ l₀) (g₀ + loadedRefs ·) := by
  refine (owns_globalRef _ loadedObj).bind fun clazz ↦ ?_
  refine (owns_globalRef _ application).bind fun application ↦ .ite (fun _ ↦ ?_) fun _ ↦ ?_
  · refine .checkAndClear fun _ ↦ ?_
    rw [add_right_comm]
    refine (owns_resetGlobal _ clazz).bind fun _ ↦ (owns_resetGlobal _ application).bind fun _ ↦ ?_
    exact .pure rfl (add_zero _).symm
  · exact .pure rfl (add_assoc ..)

/-- A load gives back every local reference, and every global one unless it succeeds. -/
theorem owns_loadClassFromDex (dexBytes dexSize : Nat) (fullyQualifiedClassName : String) :
    Owns l₀ g₀ (loadClassFromDex dexBytes dexSize fullyQualifiedClassName) (fun _ ↦ l₀)
      (g₀ + loadedRefs ·) := by
  have fail : ∀ {l₀ g₀ : Multiset Ref} (e : DexLoadError),
      Owns l₀ g₀ (pure (.error e)) (fun _ ↦ l₀) (g₀ + loadedRefs ·) := fun e ↦
    .pure rfl (add_zero _).symm
  refine .acquire _ _ rfl rfl rfl rfl rfl fun (activityThreadClass : Option Ref) ↦ .localRef ?_
  refine .checkAndClear fun b ↦ .ite (fun _ ↦ fail _) fun _ ↦ ?_
  refine (owns_callStaticMethod _ _ _ _).bind fun application ↦ .localRef ?_
  refine .ite (fun _ ↦ fail _) fun _ ↦ ?_
  refine (owns_callInstanceMethod _ _ _ _).bind fun parentLoader ↦ .localRef ?_
  refine .ite (fun _ ↦ fail _) fun _ ↦ ?_
  refine .acquire _ _ rfl rfl rfl rfl rfl fun (dexBuffer : Option Ref) ↦ .localRef ?_
  refine .checkAndClear fun b ↦ .ite (fun _ ↦ fail _) fun _ ↦ ?_
  refine .acquire _ _ rfl rfl rfl rfl rfl fun (dexLoaderClass : Option Ref) ↦ .localRef ?_
  refine .checkAndClear fun b ↦ .ite (fun _ ↦ fail _) fun _ ↦ ?_
  refine .call _ _ rfl rfl rfl rfl rfl fun (ctor : Option MethodID) ↦ ?_
  refine .checkAndClear fun b ↦ .ite (fun _ ↦ fail _) fun hm ↦ ?_
  refine .acquire _ _ (by exact not_isNone hm) rfl rfl rfl rfl
    fun (dexClassLoader : Option Ref) ↦ .localRef ?_
  refine .checkAndClear fun b ↦ .ite (fun _ ↦ fail _) fun _ ↦ ?_
  refine .acquire _ _ rfl rfl rfl rfl rfl fun (dexBufferForUpgrade : Option Ref) ↦ .localRef ?_
  refine .checkAndClear fun b ↦ .ite (fun _ ↦ fail _) fun _ ↦ ?_
  refine (owns_upgradeToResourceAwareLoader _ _ _ _ _ (not_isNone hm)).bind
    fun effectiveLoader ↦ .localRef ?_
  refine .acquire _ _ rfl rfl rfl rfl rfl fun (className : Option Ref) ↦ .localRef ?_
  refine .checkAndClear fun b ↦ .ite (fun _ ↦ fail _) fun _ ↦ ?_
  refine (owns_callInstanceMethod _ _ _ _).bind fun loadedObj ↦ .localRef ?_
  exact .ite (fun _ ↦ fail _) fun _ ↦ owns_promote _ _

end Konative.Jni
