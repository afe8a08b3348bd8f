import Konative.Lib.Program
import Mathlib.Data.List.Nodup

/-!
# The JNI environment

The functions of `JNIEnv` that the loader and `JNI_OnLoad` call, as calls of a
program, and the environment that carries them out.  Its behaviour is free: a call
may succeed or not, and may leave an exception pending or not, whatever was pending
when it was made.  The functions that return nothing and for which the JNI
specification names no exception leave what is pending alone, and the `Exception*`
ones do what they say.

The environment keeps the calls it received; what they acquired and released is read
off them.
-/

namespace Konative.Jni

/-! ## Calls -/

/-- What the environment hands out, named by the call it is the answer to. -/
structure Handle where
  part : Nat
  index : Nat
deriving DecidableEq, Repr

/-- A `jobject`, `jclass` or `jstring` that is not null. -/
abbrev Ref := Handle

/-- A `jmethodID` that is not null. -/
abbrev MethodID := Handle

/-- The functions of `JNIEnv`, with `none` for a null argument. -/
inductive Call
  | exceptionCheck
  | exceptionDescribe
  | exceptionClear
  | findClass (name : String)
  | getObjectClass (obj : Option Ref)
  | getMethodID (clazz : Option Ref) (name signature : String)
  | getStaticMethodID (clazz : Option Ref) (name signature : String)
  | callObjectMethod (obj : Option Ref) (method : Option MethodID) (args : List (Option Ref))
  | callStaticObjectMethod (clazz : Option Ref) (method : Option MethodID)
      (args : List (Option Ref))
  | callStaticVoidMethod (clazz : Option Ref) (method : Option MethodID)
      (args : List (Option Ref))
  | newObject (clazz : Option Ref) (method : Option MethodID) (args : List (Option Ref))
  | newStringUTF (bytes : String)
  | newDirectByteBuffer (address capacity : Nat)
  | newLocalRef (obj : Option Ref)
  | newGlobalRef (obj : Option Ref)
  | deleteLocalRef (obj : Ref)
  | deleteGlobalRef (obj : Ref)
  | registerNatives (clazz : Option Ref) (methods : List (String × String))
  | getStringUTFChars (string : Option Ref)
  | releaseStringUTFChars (string : Option Ref) (chars : String)
deriving DecidableEq, Repr

/-- What a function returns. -/
inductive Kind
  /-- Whether an exception is pending. -/
  | check
  /-- Nothing, and it throws nothing. -/
  | void
  /-- Nothing, from a method that may throw. -/
  | voidMethod
  /-- Whether it is `JNI_OK`. -/
  | status
  /-- Characters, or null. -/
  | chars
  /-- A reference or a method, or null. -/
  | handle
deriving DecidableEq, Repr

/-- The type of what a function returns. -/
def Kind.Answer : Kind → Type
  | .check => Bool
  | .void | .voidMethod => Unit
  | .status => Bool
  | .chars => Option String
  | .handle => Option Handle

namespace Call

/-- What the function returns. -/
def kind : Call → Kind
  | .exceptionCheck => .check
  | .exceptionDescribe | .exceptionClear => .void
  | .deleteLocalRef _ | .deleteGlobalRef _ | .releaseStringUTFChars .. => .void
  | .callStaticVoidMethod .. => .voidMethod
  | .registerNatives .. => .status
  | .getStringUTFChars _ => .chars
  | .findClass _ | .getObjectClass _ | .getMethodID .. | .getStaticMethodID ..
  | .callObjectMethod .. | .callStaticObjectMethod .. | .newObject .. | .newStringUTF _
  | .newDirectByteBuffer .. | .newLocalRef _ | .newGlobalRef _ => .handle

/-- `ExceptionCheck`, `ExceptionDescribe` and `ExceptionClear`. -/
def isException : Call → Bool
  | .exceptionCheck | .exceptionDescribe | .exceptionClear => true
  | _ => false

/-- A `Call*` or `NewObject` with a null method. -/
def nullMethod : Call → Bool
  | .callObjectMethod _ m _ | .callStaticObjectMethod _ m _ | .callStaticVoidMethod _ m _
  | .newObject _ m _ => m.isNone
  | _ => false

/-- The functions that return a new local reference. -/
def makesLocal : Call → Bool
  | .findClass _ | .getObjectClass _ | .callObjectMethod .. | .callStaticObjectMethod ..
  | .newObject .. | .newStringUTF _ | .newDirectByteBuffer .. | .newLocalRef _ => true
  | _ => false

/-- The function that returns a new global reference. -/
def makesGlobal : Call → Bool
  | .newGlobalRef _ => true
  | _ => false

/-- The local reference deleted. -/
def deletes : Call → Option Ref
  | .deleteLocalRef r => some r
  | _ => none

/-- The global reference deleted. -/
def deletesGlobal : Call → Option Ref
  | .deleteGlobalRef r => some r
  | _ => none

end Call

/-- The functions of the program that call the environment. -/
inductive Caller
  | checkAndClearException
  | localRef
  | globalRefClass
  | globalRefObject
  | callStaticMethod
  | callInstanceMethod
  | upgradeToResourceAwareLoader
  | loadClassFromDex
  | getFilesDirPath
  | jniOnLoad
deriving DecidableEq, Repr

/-- A call and who makes it. -/
structure Request where
  caller : Caller
  call : Call
deriving DecidableEq, Repr

/-! ## The environment -/

/-- What the environment does at a call: whether the result is one (not null, or
`JNI_OK`), whether an exception is left, and the characters of a string. -/
structure Behaviour where
  ok : Bool
  raises : Bool
  chars : String := ""
deriving DecidableEq, Repr

/-- A call that was made. -/
structure Event extends Request where
  /-- The name of the result. -/
  handle : Handle
  behaviour : Behaviour
  /-- An exception was pending when the call was made. -/
  pending : Bool
deriving DecidableEq, Repr

/-- The environment: what is pending, and the calls so far. -/
structure JNIEnv where
  /-- The part of the program under way. -/
  part : Nat
  pending : Bool
  calls : List Event
deriving DecidableEq, Repr

/-- The answer that a behaviour is. -/
def Kind.answer (pending : Bool) (h : Handle) (x : Behaviour) : (k : Kind) → k.Answer
  | .check => pending
  | .void | .voidMethod => ()
  | .status => x.ok
  | .chars => if x.ok then some x.chars else none
  | .handle => if x.ok then some h else none

/-- What is pending after a call. -/
def Call.pendingAfter (c : Call) (pending : Bool) (x : Behaviour) : Bool :=
  match c with
  | .exceptionClear => false
  | _ => match c.kind with
    | .check | .void => pending
    | .voidMethod | .status | .chars | .handle => pending || x.raises

/-- A function that returns a handle may leave an exception. -/
theorem Call.pendingAfter_handle {c : Call} (h : c.kind = .handle) (pending : Bool)
    (x : Behaviour) : c.pendingAfter pending x = (pending || x.raises) := by
  cases c <;> first | rfl | exact nomatch h

/-- A function that throws nothing leaves what is pending. -/
theorem Call.pendingAfter_void {c : Call} (h : c.kind = .void) (he : c.isException = false)
    (pending : Bool) (x : Behaviour) : c.pendingAfter pending x = pending := by
  cases c with
  | exceptionClear => cases he
  | _ => first | rfl | cases h

namespace JNIEnv

/-- The environment as a part of the program starts. -/
def start (part : Nat) (pending : Bool) : JNIEnv where
  part := part
  pending := pending
  calls := []

/-- The event of a call. -/
def event (s : JNIEnv) (r : Request) (x : Behaviour) : Event where
  toRequest := r
  handle := ⟨s.part, s.calls.length⟩
  behaviour := x
  pending := s.pending

/-- The environment carries a call out. -/
def next : Handler (fun r : Request ↦ r.call.kind.Answer) Behaviour JNIEnv :=
  fun s r x ↦ (r.call.kind.answer s.pending ⟨s.part, s.calls.length⟩ x,
    { s with pending := r.call.pendingAfter s.pending x, calls := s.calls ++ [s.event r x] })

variable (s : JNIEnv) (r : Request) (x : Behaviour)

@[simp] theorem next_calls : (next s r x).2.calls = s.calls ++ [s.event r x] := rfl

end JNIEnv

/-- Native code: a program over the JNI environment. -/
abbrev Native := Prog fun r : Request ↦ r.call.kind.Answer

/-- The call of one function of the environment. -/
def invoke (f : Caller) (c : Call) : Native c.kind.Answer := .call ⟨f, c⟩ .ret

/-- A run makes its first call first. -/
theorem run_invoke {α : Type} (f : Caller) (c : Call) (k : c.kind.Answer → Native α)
    (σ : Nat → Behaviour) (s : JNIEnv) :
    (invoke f c >>= k).run JNIEnv.next σ s =
      (k (JNIEnv.next s ⟨f, c⟩ (σ 0)).1).run JNIEnv.next (fun n ↦ σ (n + 1))
        (JNIEnv.next s ⟨f, c⟩ (σ 0)).2 := rfl

/-- A run adds to the calls. -/
theorem calls_extend {α : Type} (p : Native α) (σ : Nat → Behaviour) (s : JNIEnv) :
    s.calls <+: (p.run JNIEnv.next σ s).2.calls := by
  have h : Prog.Triple JNIEnv.next (fun t ↦ s.calls <+: t.calls) p fun _ t ↦ s.calls <+: t.calls :=
    .of_preserved (fun t r x ht ↦ ht.trans (List.prefix_append ..)) p
  exact (h s List.prefix_rfl).run σ

/-! ## What the calls acquired and released -/

namespace Event

/-- The local reference that the call acquired. -/
def acquires (e : Event) : Option Ref :=
  if e.call.makesLocal && e.behaviour.ok then some e.handle else none

/-- The global reference that the call created. -/
def acquiresGlobal (e : Event) : Option Ref :=
  if e.call.makesGlobal && e.behaviour.ok then some e.handle else none

end Event

/-- The local references acquired. -/
def acquired (calls : List Event) : List Ref := calls.filterMap Event.acquires

/-- The local references deleted. -/
def deleted (calls : List Event) : List Ref := calls.filterMap (·.call.deletes)

/-- The global references created. -/
def globalAcquired (calls : List Event) : List Ref := calls.filterMap Event.acquiresGlobal

/-- The global references deleted. -/
def globalDeleted (calls : List Event) : List Ref := calls.filterMap (·.call.deletesGlobal)

/-- Each call has a handle of its own. -/
theorem handles_nodup {α : Type} (p : Native α) (part : Nat) (pending : Bool)
    (σ : Nat → Behaviour) :
    ((p.run JNIEnv.next σ (.start part pending)).2.calls.map (·.handle)).Nodup := by
  have h : Prog.Triple JNIEnv.next
      (fun s ↦ s.part = part ∧ s.calls.map (·.handle) = (List.range s.calls.length).map (⟨part, ·⟩))
      p (fun _ s ↦ s.part = part ∧
        s.calls.map (·.handle) = (List.range s.calls.length).map (⟨part, ·⟩)) := by
    refine Prog.Triple.of_preserved (fun s c x hs ↦ ⟨hs.1, ?_⟩) p
    rw [JNIEnv.next_calls, List.map_append, hs.2, List.length_append, List.length_singleton,
      List.range_succ, List.map_append, ← hs.1]
    rfl
  rw [((h (.start part pending) ⟨rfl, rfl⟩).run σ).2]
  exact (List.nodup_range).map fun a b hab ↦ congrArg Handle.index hab

theorem Event.acquires_eq_some {e : Event} {r : Ref} (h : e.acquires = some r) : r = e.handle := by
  unfold acquires at h
  split at h
  · exact (Option.some.inj h).symm
  · cases h

/-- No local reference is acquired twice. -/
theorem acquired_nodup {calls : List Event} (h : (calls.map (·.handle)).Nodup) :
    (acquired calls).Nodup := by
  refine h.sublist ?_
  induction calls with
  | nil => exact .slnil
  | cons e calls ih =>
      have ih := ih (List.nodup_cons.mp h).2
      unfold acquired
      rw [List.filterMap_cons]
      cases he : e.acquires with
      | none => exact ih.cons _
      | some r =>
          obtain rfl := Event.acquires_eq_some he
          exact ih.cons_cons _

end Konative.Jni
