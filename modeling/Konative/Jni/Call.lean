import Konative.Jni.Env

/-!
# References and call helpers

`ref.hpp` and `call.hpp`.  A `LocalRef` deletes its reference where its scope ends, so
a declaration of one is the scope combinator `localRef`; a `GlobalRef` is reset by
hand.  The call helpers are at the type at which this repository calls them, where
the method returns an object.
-/

namespace Konative.Jni

variable {α : Type}

/-- `check_and_clear_exception`: clear what is pending, and return whether it was. -/
def checkAndClearException : Native Bool := do
  let pending : Bool ← invoke .checkAndClearException .exceptionCheck
  if pending then
    invoke .checkAndClearException .exceptionDescribe
    invoke .checkAndClearException .exceptionClear
    pure true
  else
    pure false

/-- `LocalRef::reset`, which is also what the destructor does. -/
def resetLocal : Option Ref → Native Unit
  | some r => invoke .localRef (.deleteLocalRef r)
  | none => pure ()

/-- A `LocalRef` that owns `r` for the rest of its scope. -/
def localRef (r : Option Ref) (scope : Native α) : Native α := do
  let a ← scope
  resetLocal r
  pure a

/-- The constructor of a `GlobalRef`, which promotes a reference. -/
def globalRef (f : Caller) : Option Ref → Native (Option Ref)
  | some r => invoke f (.newGlobalRef (some r))
  | none => pure none

/-- `GlobalRef::reset`. -/
def resetGlobal (f : Caller) : Option Ref → Native Unit
  | some r => invoke f (.deleteGlobalRef r)
  | none => pure ()

/-- `call_static_method<jobject>`. -/
def callStaticMethod (clazz : Option Ref) (name signature : String) (args : List (Option Ref)) :
    Native (Option Ref) := do
  if clazz.isNone then
    pure none
  else
    let method : Option MethodID ← invoke .callStaticMethod
      (.getStaticMethodID clazz name signature)
    if (← checkAndClearException) || method.isNone then
      pure none
    else
      let result : Option Ref ← invoke .callStaticMethod (.callStaticObjectMethod clazz method args)
      let _ ← checkAndClearException
      pure result

/-- `call_instance_method<jobject>`. -/
def callInstanceMethod (obj : Option Ref) (name signature : String) (args : List (Option Ref)) :
    Native (Option Ref) := do
  if obj.isNone then
    pure none
  else
    let clazz : Option Ref ← invoke .callInstanceMethod (.getObjectClass obj)
    if (← checkAndClearException) || clazz.isNone then
      resetLocal clazz
      pure none
    else
      let method : Option MethodID ← invoke .callInstanceMethod (.getMethodID clazz name signature)
      -- the class is deleted here, before what the lookup left is checked
      resetLocal clazz
      if (← checkAndClearException) || method.isNone then
        pure none
      else
        let result : Option Ref ← invoke .callInstanceMethod (.callObjectMethod obj method args)
        let _ ← checkAndClearException
        pure result

/-! ## The check -/

section Check

variable {Q : α → JNIEnv → Prop} {k : Bool → Native α}

/-- A check leaves nothing pending. -/
theorem triple_settle (hk : ∀ b, Prog.Triple JNIEnv.next (·.pending = false) (k b) Q) :
    Prog.Triple JNIEnv.next (fun _ ↦ True) (checkAndClearException >>= k) Q := by
  refine Prog.Triple.bind (Q := fun _ s ↦ s.pending = false) ?_ hk
  refine Prog.Triple.bind (Q := fun (b : Bool) s ↦ s.pending = b) (fun s _ x ↦ ?_) fun b ↦ ?_
  · exact (rfl : s.pending = s.pending)
  refine .ite (fun _ ↦ (Prog.Triple.trivial _).bind fun _ ↦ ?_) fun hb ↦
    .pure fun s hs ↦ hs.trans (Bool.not_eq_true _ ▸ hb)
  refine Prog.Triple.bind (Q := fun _ s ↦ s.pending = false) (fun s _ x ↦ ?_) fun _ ↦
    .pure fun _ hs ↦ hs
  exact (rfl : false = false)

/-- Any call may be made where a check is to come. -/
theorem triple_call {P : JNIEnv → Prop} (f : Caller) (c : Call) {k : c.kind.Answer → Native α}
    (hk : ∀ a, Prog.Triple JNIEnv.next (fun _ ↦ True) (k a) Q) :
    Prog.Triple JNIEnv.next P (invoke f c >>= k) Q :=
  (Prog.Triple.trivial _).bind hk

/-- A reset leaves what is pending. -/
theorem triple_reset (b : Bool) (r : Option Ref) :
    Prog.Triple JNIEnv.next (·.pending = b) (resetLocal r) fun _ s ↦ s.pending = b := by
  cases r with
  | none => exact .pure fun _ hs ↦ hs
  | some r => exact fun _ hs _ ↦ hs

/-- An instance method that is called with nothing pending leaves nothing pending. -/
theorem settles_callInstanceMethod (obj : Option Ref) (name signature : String)
    (args : List (Option Ref)) :
    Prog.Triple JNIEnv.next (·.pending = false) (callInstanceMethod obj name signature args)
      fun _ s ↦ s.pending = false := by
  refine .ite (fun _ ↦ .pure fun _ hs ↦ hs) fun _ ↦ ?_
  refine triple_call _ _ fun (clazz : Option Ref) ↦ triple_settle fun b ↦
    .ite (fun _ ↦ ?_) fun _ ↦ ?_
  · exact (triple_reset _ clazz).bind fun _ ↦ .pure fun _ hs ↦ hs
  refine triple_call _ _ fun (method : Option MethodID) ↦ ?_
  refine (Prog.Triple.trivial _).bind fun _ ↦ triple_settle fun b ↦ ?_
  refine .ite (fun _ ↦ .pure fun _ hs ↦ hs) fun _ ↦ ?_
  exact triple_call _ _ fun result ↦ triple_settle fun _ ↦ .pure fun _ hs ↦ hs

/-- With nothing pending, a check is one call. -/
theorem run_check {s : JNIEnv} (h : s.pending = false) (σ : Nat → Behaviour) :
    (checkAndClearException >>= k).run JNIEnv.next σ s =
      (k false).run JNIEnv.next (fun n ↦ σ (n + 1))
        (JNIEnv.next s ⟨.checkAndClearException, .exceptionCheck⟩ (σ 0)).2 := by
  change (((if s.pending then _ else pure false) >>= k : Native α).run JNIEnv.next _ _) = _
  rw [h]
  rfl

end Check

end Konative.Jni
