import Konative.Jni.Discipline
import Konative.Lib.Checklist

/-!
# The steps of a load

The calls of the mandatory steps of `load_class_from_dex`, in the order in which they are
made, against what the failure of each is reported as.  A call fails when it raises or gives
null; what the specification leaves undefined, the result of a call that raised, may be
anything.

Most calls are followed by a check of the exception and of the result.  The call helpers
check the exception of the method they call and pass its result on all the same, so that
their callers see the result only; and of the two promotions the results only are looked at.
There a call can raise and not be noticed.
-/

namespace Konative.Jni

open JNIEnv (next)
open Checklist

/-! ## The steps -/

/-- What is looked at after a call. -/
inductive Look
  /-- The exception and the result. -/
  | exception
  /-- The result only, of a method that a helper calls. -/
  | method
  /-- The result only, of a promotion. -/
  | promotion
deriving DecidableEq, Repr

/-- A call of a mandatory step: what its failure is reported as, and what is looked at. -/
structure Step where
  error : DexLoadError
  look : Look
deriving DecidableEq, Repr

/-- The calls that the mandatory steps make. -/
def steps : List Step := [
  ⟨.activityThreadClassNotFound, .exception⟩,
  -- `currentApplication`: the method and its call
  ⟨.currentApplicationNull, .exception⟩,
  ⟨.currentApplicationNull, .method⟩,
  -- `getClassLoader`: the class, the method and its call
  ⟨.classLoaderNull, .exception⟩,
  ⟨.classLoaderNull, .exception⟩,
  ⟨.classLoaderNull, .method⟩,
  ⟨.byteBufferCreationFailed, .exception⟩,
  -- `InMemoryDexClassLoader`: the class, its constructor and the object
  ⟨.dexClassLoaderConstructionFailed, .exception⟩,
  ⟨.dexClassLoaderConstructionFailed, .exception⟩,
  ⟨.dexClassLoaderConstructionFailed, .exception⟩,
  ⟨.byteBufferCreationFailed, .exception⟩,
  -- `loadClass`, after the upgrade: the name, the class, the method and its call
  ⟨.classNotFoundInDex, .exception⟩,
  ⟨.classNotFoundInDex, .exception⟩,
  ⟨.classNotFoundInDex, .exception⟩,
  ⟨.classNotFoundInDex, .method⟩,
  ⟨.globalRefPromotionFailed, .promotion⟩,
  ⟨.globalRefPromotionFailed, .promotion⟩]

/-- The call raised, or produced null. -/
def Behaviour.failed (x : Behaviour) : Bool := x.raises || !x.ok

/-- What is looked at shows that the call failed. -/
def Look.notices : Look → Behaviour → Bool
  | .exception, x => x.failed
  | .method, x | .promotion, x => !x.ok

def Call.look : Call → Look
  | .callObjectMethod .. | .callStaticObjectMethod .. => .method
  | .newGlobalRef _ => .promotion
  | _ => .exception

def Call.isNewLocalRef : Call → Bool
  | .newLocalRef _ => true
  | _ => false

def Call.isNewObject : Call → Bool
  | .newObject .. => true
  | _ => false

def Call.isGetObjectClass : Call → Bool
  | .getObjectClass _ => true
  | _ => false

/-! ## The calls of a run -/

/-- A call that returns a reference or a method. -/
def Event.asks (e : Event) : Bool := e.call.kind = .handle

/-- The calls of the mandatory steps. -/
def mandatory (calls : List Event) : List Event :=
  calls.filter fun e ↦ e.asks && e.caller != .upgradeToResourceAwareLoader

/-- The calls of the upgrade. -/
def optional (calls : List Event) : List Event :=
  calls.filter fun e ↦ e.asks && e.caller == .upgradeToResourceAwareLoader

/-- The call that takes the plain loader instead. -/
def Event.isFallback (e : Event) : Bool := e.call.isNewLocalRef

/-- The error returned, if it is one. -/
def outcome : Except DexLoadError LoadedDexClass → Option DexLoadError
  | .ok _ => none
  | .error X => some X

/-- A failure of the upgrade that it looks at; the class of the loader is not looked at. -/
def Event.shows (e : Event) : Bool :=
  e.behaviour.raises || (!e.behaviour.ok && !e.call.isGetObjectClass)

/-! ## One call -/

/-- What the calls so far are, and whether an exception is pending. -/
structure At (ms us : List Event) (b : Bool) (s : JNIEnv) : Prop where
  mandatory : mandatory s.calls = ms
  optional : optional s.calls = us
  pending : s.pending = b

/-- The reference or method that the call returned. -/
def Event.result (e : Event) : Option Handle := if e.behaviour.ok then some e.handle else none

/-- The reference or method in an answer. -/
def Kind.given : (k : Kind) → k.Answer → Option Handle
  | .handle, a => a
  | .check, _ | .void, _ | .voidMethod, _ | .status, _ | .chars, _ => none

section Rules

variable {α β : Type} {ms us : List Event} {b : Bool} {e : Event} {Q : β → JNIEnv → Prop}

private theorem given_answer {c : Call} (hc : c.kind = .handle) (pending : Bool) (h : Handle)
    (x : Behaviour) : c.kind.given (c.kind.answer pending h x) = if x.ok then some h else none := by
  rw [hc]
  rfl

/-- What one more call adds. -/
private theorem At.next {s : JNIEnv} (hs : At ms us b s) (r : Request) (x : Behaviour) :
    At (ms ++ Jni.mandatory [s.event r x]) (us ++ Jni.optional [s.event r x])
      (r.call.pendingAfter b x) (next s r x).2 := by
  refine ⟨?_, ?_, ?_⟩
  · rw [JNIEnv.next_calls, Jni.mandatory, List.filter_append, ← hs.mandatory]
    rfl
  · rw [JNIEnv.next_calls, Jni.optional, List.filter_append, ← hs.optional]
    rfl
  · change r.call.pendingAfter s.pending x = _
    rw [hs.pending]

/-- A call that returns no reference or method is of neither kind. -/
private theorem At.next_quiet {s : JNIEnv} (hs : At ms us b s) (r : Request)
    (hr : r.call.kind ≠ .handle) (x : Behaviour) :
    At ms us (r.call.pendingAfter b x) (JNIEnv.next s r x).2 := by
  have h := hs.next r x
  have hp : (s.event r x).asks = false := decide_eq_false hr
  rw [Jni.mandatory, Jni.optional, List.filter_singleton, List.filter_singleton, hp,
    Bool.false_and, Bool.false_and] at h
  simpa using h

/-- A call of a mandatory step, whatever is pending. -/
theorem triple_ask (f : Caller) (c : Call) (hc : c.kind = .handle)
    (hf : (f != .upgradeToResourceAwareLoader) = true) {k : c.kind.Answer → Native β}
    (hk : ∀ e : Event, e.toRequest = ⟨f, c⟩ → ∀ a, c.kind.given a = e.result →
      Prog.Triple next (At (ms ++ [e]) us (b || e.behaviour.raises)) (k a) Q) :
    Prog.Triple next (At ms us b) (invoke f c >>= k) Q := by
  intro s hs x
  have h := hs.next ⟨f, c⟩ x
  have hp : (s.event ⟨f, c⟩ x).asks = true := decide_eq_true hc
  have hmandatory : mandatory [s.event ⟨f, c⟩ x] = [s.event ⟨f, c⟩ x] :=
    List.filter_cons_of_pos (by rw [hp, Bool.true_and]; exact hf)
  have hoptional : optional [s.event ⟨f, c⟩ x] = [] := by
    refine List.filter_cons_of_neg fun h ↦ ?_
    rw [hp, Bool.true_and] at h
    exact bne_iff_ne.mp hf (beq_iff_eq.mp h)
  rw [hmandatory, hoptional, List.append_nil, Call.pendingAfter_handle hc] at h
  exact hk (s.event ⟨f, c⟩ x) rfl _ (given_answer hc ..) _ h

/-- A call of the upgrade, whatever is pending. -/
theorem triple_askOptional (c : Call) (hc : c.kind = .handle) {k : c.kind.Answer → Native β}
    (hk : ∀ e : Event, e.toRequest = ⟨.upgradeToResourceAwareLoader, c⟩ → e.pending = b →
      ∀ a, c.kind.given a = e.result →
        Prog.Triple next (At ms (us ++ [e]) (b || e.behaviour.raises)) (k a) Q) :
    Prog.Triple next (At ms us b) (invoke .upgradeToResourceAwareLoader c >>= k) Q := by
  intro s hs x
  have h := hs.next ⟨.upgradeToResourceAwareLoader, c⟩ x
  have hp : (s.event ⟨.upgradeToResourceAwareLoader, c⟩ x).asks = true := decide_eq_true hc
  have hmandatory : mandatory [s.event ⟨.upgradeToResourceAwareLoader, c⟩ x] = [] := by
    refine List.filter_cons_of_neg fun h ↦ ?_
    rw [hp] at h
    cases h
  have hoptional : optional [s.event ⟨.upgradeToResourceAwareLoader, c⟩ x] =
      [s.event ⟨.upgradeToResourceAwareLoader, c⟩ x] :=
    List.filter_cons_of_pos (by rw [hp]; rfl)
  rw [hmandatory, hoptional, List.append_nil, Call.pendingAfter_handle hc] at h
  exact hk (s.event ⟨_, c⟩ x) rfl hs.pending _ (given_answer hc ..) _ h

/-- A call that returns no reference or method. -/
theorem triple_quiet (f : Caller) (c : Call) (hc : c.kind ≠ .handle)
    (hb : ∀ x, c.pendingAfter b x = b) :
    Prog.Triple next (At ms us b) (invoke f c) fun _ ↦ At ms us b := by
  intro s hs x
  have h := hs.next_quiet ⟨f, c⟩ hc x
  rw [hb] at h
  exact h

theorem triple_exceptionCheck_at (f : Caller) :
    Prog.Triple next (At ms us b) (invoke f .exceptionCheck)
      fun (a : Bool) s ↦ a = b ∧ At ms us b s :=
  fun s hs x ↦ ⟨hs.pending, triple_quiet f .exceptionCheck nofun (fun _ ↦ rfl) s hs x⟩

theorem triple_exceptionClear_at (f : Caller) :
    Prog.Triple next (At ms us b) (invoke f .exceptionClear) fun _ ↦ At ms us false :=
  fun _ hs x ↦ hs.next_quiet ⟨f, .exceptionClear⟩ nofun x

theorem triple_checkAndClear :
    Prog.Triple next (At ms us b) checkAndClearException fun a s ↦ a = b ∧ At ms us false s := by
  refine (triple_exceptionCheck_at _).bind fun (a : Bool) ↦ .ite (fun ha ↦ ?_) fun ha ↦
    .pure fun s hs ↦ ?_
  · rintro s ⟨rfl, hs⟩
    refine ((triple_quiet _ .exceptionDescribe nofun fun _ ↦ rfl).bind fun _ ↦ ?_) s hs
    exact (triple_exceptionClear_at _).bind fun _ ↦ .pure fun s hs ↦ ⟨ha.symm, hs⟩
  · obtain rfl : a = false := Bool.not_eq_true _ ▸ ha
    obtain ⟨rfl, hs⟩ := hs
    exact ⟨rfl, hs⟩

/-- The exception and the result are looked at. -/
theorem triple_look {r : Option Handle} (hr : r = e.result) {p q : Native β}
    (hp : e.behaviour.failed = true → Prog.Triple next (At ms us false) p Q)
    (hq : e.behaviour.failed = false → Prog.Triple next (At ms us false) q Q) :
    Prog.Triple next (At ms us e.behaviour.raises)
      (checkAndClearException >>= fun b ↦ if (b || r.isNone) = true then p else q) Q := by
  refine triple_checkAndClear.bind fun b s hs ↦ ?_
  obtain ⟨rfl, hs⟩ := hs
  have hfailed : (e.behaviour.raises || r.isNone) = e.behaviour.failed := by
    rw [hr, Event.result, Behaviour.failed]
    cases e.behaviour.ok <;> rfl
  rw [hfailed]
  refine Prog.Triple.ite hp (fun h ↦ hq ?_) s hs
  exact Bool.not_eq_true _ ▸ h

theorem triple_resetLocal_at (r : Option Ref) :
    Prog.Triple next (At ms us b) (resetLocal r) fun _ ↦ At ms us b := by
  cases r with
  | none => exact .pure fun _ hs ↦ hs
  | some r => exact triple_quiet _ _ nofun fun _ ↦ rfl

/-- What a reset keeps of each result, the end of a scope does. -/
theorem triple_scope {P : JNIEnv → Prop} {p : Native β} {r : Option Ref}
    (hQ : ∀ a, Prog.Triple next (Q a) (resetLocal r) fun _ ↦ Q a)
    (hp : Prog.Triple next P p Q) : Prog.Triple next P (localRef r p) Q :=
  hp.bind fun a ↦ (hQ a).bind fun _ ↦ .pure fun _ hs ↦ hs

end Rules

/-! ## How far a load is -/

/-- What the steps notice of the calls. -/
def noticed (ms : List Event) : Option DexLoadError :=
  first (fun st x ↦ st.look.notices x) Step.error steps (ms.map (·.behaviour))

/-- The fallback failed. -/
def fallbackFails (us : List Event) : Bool := us.any fun u ↦ u.isFallback && u.behaviour.failed

/-- The calls of an upgrade of the loader `b`: nothing shows, or the plain loader was taken
after something did. -/
def Shape (b : Option Ref) (us : List Event) : Prop :=
  (∀ u ∈ us, u.isFallback = false ∧ u.shows = false) ∨
    ∃ bs e, us = bs ++ [e] ∧ e.call = .newLocalRef b ∧ e.pending = false ∧
      (∀ u ∈ bs, u.isFallback = false) ∧ ∃ u ∈ bs, u.shows = true

/-- There was no upgrade yet, or it was one of the loader made. -/
def Upgraded (ms us : List Event) : Prop :=
  us = [] ∨ ∃ n ∈ ms, n.call.isNewObject = true ∧ Shape (some n.handle) us

/-- The calls are those of the first steps. -/
structure Along (ms : List Event) : Prop where
  length : ms.length ≤ steps.length
  look : ms.map (·.call.look) = (steps.take ms.length).map (·.look)

/-- The calls of the first `k` steps were made, and nothing was noticed. -/
structure Passed (k : Nat) (ms us : List Event) : Prop where
  length : ms.length = k
  along : Along ms
  noticed : noticed ms = none
  sound : fallbackFails us = false
  upgrade : Upgraded ms us

/-- The load came to `o`. -/
structure Ended (o : Option DexLoadError) (ms us : List Event) : Prop where
  outcome : o = if fallbackFails us then some .classNotFoundInDex else noticed ms
  complete : o = none → ms.length = steps.length
  along : Along ms
  /-- Both promotions are made, or none. -/
  pair : 15 < ms.length → ms.length = 17
  /-- Before the promotions only the last call can be noticed. -/
  stops : noticed (ms.dropLast.take 15) = none
  /-- Where the fallback failed the load ends with the name of the class. -/
  late : fallbackFails us = true → ms.length = 12
  upgrade : Upgraded ms us

section Progress

variable {k : Nat} {ms us : List Event} {e : Event} {st : Step}

theorem Upgraded.snoc (h : Upgraded ms us) (e : Event) : Upgraded (ms ++ [e]) us := by
  rcases h with h | ⟨n, hn, h⟩
  · exact .inl h
  · exact .inr ⟨n, List.mem_append_left _ hn, h⟩

theorem upgraded_of_shape {n : Event} (hn : n.call.isNewObject = true)
    (h : Shape (some n.handle) us) : Upgraded (ms ++ [n] ++ [e]) us :=
  .inr ⟨n, List.mem_append_left _ (List.mem_append_right _ (List.mem_singleton.mpr rfl)), hn, h⟩

theorem Along.snoc (h : Along ms) (hst : steps[ms.length]? = some st)
    (he : e.call.look = st.look) : Along (ms ++ [e]) := by
  obtain ⟨hlt, rfl⟩ := List.getElem?_eq_some_iff.mp hst
  have hlen : (ms ++ [e]).length = ms.length + 1 := List.length_append
  constructor
  · rw [hlen]
    exact hlt
  · rw [hlen, List.map_append, List.take_succ_eq_append_getElem hlt, List.map_append, h.look]
    exact congrArg (_ ++ [·]) he

theorem noticed_snoc (h : noticed ms = none) (hst : steps[ms.length]? = some st) (e : Event) :
    noticed (ms ++ [e]) = if st.look.notices e.behaviour then some st.error else none := by
  rw [noticed, List.map_append]
  apply first_concat h
  rw [List.length_map]
  exact hst

/-- A step passes. -/
theorem Passed.snoc (h : Passed k ms us) (hst : steps[k]? = some st)
    (he : e.call.look = st.look) (hx : st.look.notices e.behaviour = false) :
    Passed (k + 1) (ms ++ [e]) us := by
  rw [← h.length] at hst
  refine ⟨?_, h.along.snoc hst he, ?_, h.sound, h.upgrade.snoc e⟩
  · rw [List.length_append, h.length]
    rfl
  · rw [noticed_snoc h.noticed hst, if_neg (Bool.not_eq_true _ ▸ hx)]

/-- A step before the promotions is seen to fail. -/
theorem Passed.stop (h : Passed k ms us) (hst : steps[k]? = some st) (hk : k < 15)
    (he : e.call.look = st.look) (hx : st.look.notices e.behaviour = true) :
    Ended (some st.error) (ms ++ [e]) us := by
  have hst' := hst
  rw [← h.length] at hst'
  have hlen : (ms ++ [e]).length = k + 1 := by rw [List.length_append, h.length]; rfl
  refine ⟨?_, nofun, h.along.snoc hst' he, fun hl ↦ ?_, ?_, fun hf ↦ ?_, h.upgrade.snoc e⟩
  · rw [h.sound, noticed_snoc h.noticed hst', if_pos hx]
    rfl
  · omega
  · rw [List.dropLast_concat, List.take_of_length_le (by rw [h.length]; omega)]
    exact h.noticed
  · rw [h.sound] at hf
    cases hf

end Progress

/-! ## The helpers -/

section Helpers

variable {k : Nat} {ms us : List Event} {e : Event} {X : DexLoadError} {f : Caller} {c : Call}
  {β : Type} {Q : β → JNIEnv → Prop}

/-- What a load ends with. -/
def Concluded (r : Except DexLoadError LoadedDexClass) (s : JNIEnv) : Prop :=
  Ended (outcome r) (mandatory s.calls) (optional s.calls)

/-- What a helper ends with: no result, and the load is over, or the steps have passed. -/
def HelperEnds (k : Nat) (X : DexLoadError) (us : List Event) (r : Option Ref) (s : JNIEnv) :
    Prop :=
  ∃ ms, At ms us false s ∧ if r.isNone then Ended (some X) ms us else Passed k ms us

theorem triple_concluded (h : Ended (some X) ms us) :
    Prog.Triple next (At ms us false) (pure (.error X)) Concluded := by
  refine .pure fun s hs ↦ ?_
  rw [Concluded, hs.mandatory, hs.optional]
  exact h

theorem triple_none (h : Ended (some X) ms us) :
    Prog.Triple next (At ms us false) (pure none) (HelperEnds k X us) :=
  .pure fun _ hs ↦ ⟨ms, hs, h⟩

/-- The end of a scope changes nothing. -/
theorem concluded_scope (r : Option Ref) (a : Except DexLoadError LoadedDexClass) :
    Prog.Triple next (Concluded a) (resetLocal r) fun _ ↦ Concluded a := by
  intro s hs
  refine (triple_resetLocal_at r s ⟨rfl, rfl, rfl⟩).mono fun _ t ht ↦ ?_
  rw [Concluded, ht.mandatory, ht.optional]
  exact hs

/-- A call whose exception is looked at either ends the load or lets it go on. -/
theorem triple_step (h : Passed k ms us) (hst : steps[k]? = some ⟨X, .exception⟩) (hk : k < 15)
    (he : e.toRequest = ⟨f, c⟩) (hc : c.look = .exception) {r : Option Handle} (hr : r = e.result)
    {p q : Native β}
    (hp : Ended (some X) (ms ++ [e]) us → Prog.Triple next (At (ms ++ [e]) us false) p Q)
    (hq : Passed (k + 1) (ms ++ [e]) us → r = some e.handle →
      Prog.Triple next (At (ms ++ [e]) us false) q Q) :
    Prog.Triple next (At (ms ++ [e]) us e.behaviour.raises)
      (checkAndClearException >>= fun b ↦ if (b || r.isNone) = true then p else q) Q := by
  have hlook : e.call.look = (⟨X, .exception⟩ : Step).look := by rw [he, hc]
  refine triple_look hr (fun hx ↦ hp (h.stop hst hk hlook hx)) fun hx ↦
    hq (h.snoc hst hlook hx) ?_
  rw [Behaviour.failed, Bool.or_eq_false_iff, Bool.not_eq_false'] at hx
  rw [hr, Event.result, hx.2]
  rfl

/-- The call of the method itself, whose result is handed on. -/
theorem triple_method (h : Passed k ms us) (hst : steps[k]? = some ⟨X, .method⟩) (hk : k < 15)
    (he : e.toRequest = ⟨f, c⟩) (hc : c.look = .method) {r : Option Handle} (hr : r = e.result) :
    Prog.Triple next (At (ms ++ [e]) us e.behaviour.raises)
      (checkAndClearException >>= fun _ ↦ pure r) (HelperEnds (k + 1) X us) := by
  have hlook : e.call.look = (⟨X, .method⟩ : Step).look := by rw [he, hc]
  refine triple_checkAndClear.bind fun _ ↦ .pure fun s hs ↦ ⟨_, hs.2, ?_⟩
  rw [hr, Event.result]
  cases hok : e.behaviour.ok with
  | false =>
      apply h.stop hst hk hlook
      change (!e.behaviour.ok) = true
      rw [hok]
      rfl
  | true =>
      apply h.snoc hst hlook
      change (!e.behaviour.ok) = false
      rw [hok]
      rfl

theorem triple_callStaticMethod_at (clazz : Ref) (name signature : String)
    (args : List (Option Ref)) (h : Passed k ms us) (hk : k + 1 < 15)
    (hst : steps[k]? = some ⟨X, .exception⟩) (hst' : steps[k + 1]? = some ⟨X, .method⟩) :
    Prog.Triple next (At ms us false) (callStaticMethod (some clazz) name signature args)
      (HelperEnds (k + 2) X us) := by
  refine .ite (fun hn ↦ nomatch hn) fun _ ↦ ?_
  refine triple_ask _ _ rfl rfl fun e he (method : Option MethodID) hm ↦ ?_
  refine triple_step h hst (by omega) he rfl hm triple_none fun h _ ↦ ?_
  refine triple_ask _ _ rfl rfl fun e he (result : Option Ref) hr ↦ ?_
  exact triple_method h hst' hk he rfl hr

theorem triple_callInstanceMethod_at (obj : Ref) (name signature : String)
    (args : List (Option Ref)) (h : Passed k ms us) (hk : k + 2 < 15)
    (hst : steps[k]? = some ⟨X, .exception⟩) (hst' : steps[k + 1]? = some ⟨X, .exception⟩)
    (hst'' : steps[k + 2]? = some ⟨X, .method⟩) :
    Prog.Triple next (At ms us false) (callInstanceMethod (some obj) name signature args)
      (HelperEnds (k + 3) X us) := by
  refine .ite (fun hn ↦ nomatch hn) fun _ ↦ ?_
  refine triple_ask _ _ rfl rfl fun e he (clazz : Option Ref) hc ↦ ?_
  refine triple_step h hst (by omega) he rfl hc (fun hend ↦ ?_) fun h _ ↦ ?_
  · exact (triple_resetLocal_at clazz).bind fun _ ↦ triple_none hend
  refine triple_ask _ _ rfl rfl fun e he (method : Option MethodID) hm ↦ ?_
  refine (triple_resetLocal_at clazz).bind fun _ ↦ ?_
  refine triple_step h hst' (by omega) he rfl hm triple_none fun h _ ↦ ?_
  refine triple_ask _ _ rfl rfl fun e he (result : Option Ref) hr ↦ ?_
  exact triple_method h hst'' hk he rfl hr

/-- What follows a helper. -/
theorem triple_afterHelper {r : Option Ref} {q : Native (Except DexLoadError LoadedDexClass)}
    (hq : ∀ ms obj, r = some obj → Passed k ms us → Prog.Triple next (At ms us false) q Concluded) :
    Prog.Triple next (HelperEnds k X us r)
      (if r.isNone = true then pure (.error X) else q) Concluded := by
  rintro s ⟨ms, hs, h⟩
  cases r with
  | none => exact triple_concluded h s hs
  | some obj => exact hq ms obj rfl h s hs

end Helpers

/-! ## The upgrade -/

section Upgrade

variable {ms us : List Event} {e : Event} {b : Option Ref} {β : Type} {Q : β → JNIEnv → Prop}

/-- Nothing has shown in the calls of the upgrade. -/
def Building (us : List Event) : Prop := ∀ u ∈ us, u.isFallback = false ∧ u.shows = false

/-- The calls made, and something showed in them. -/
def Spoiled (us : List Event) : Prop :=
  (∀ u ∈ us, u.isFallback = false) ∧ ∃ u ∈ us, u.shows = true

/-- What an upgrade of the loader `b` ends with. -/
def UpgradeEnds (ms : List Event) (b r : Option Ref) (s : JNIEnv) : Prop :=
  ∃ us p, At ms us p s ∧ Shape b us ∧ fallbackFails us = (r.isNone || p)

theorem Building.snoc (h : Building us) (hf : e.isFallback = false) (hs : e.shows = false) :
    Building (us ++ [e]) :=
  List.forall_mem_append.mpr ⟨h, List.forall_mem_singleton.mpr ⟨hf, hs⟩⟩

theorem Building.spoil (h : Building us) (hf : e.isFallback = false) (hs : e.shows = true) :
    Spoiled (us ++ [e]) :=
  ⟨List.forall_mem_append.mpr ⟨fun u hu ↦ (h u hu).1, List.forall_mem_singleton.mpr hf⟩,
    e, List.mem_append_right _ (List.mem_singleton.mpr rfl), hs⟩

/-- One more call spoils nothing less. -/
theorem Spoiled.snoc (h : Spoiled us) (hf : e.isFallback = false) : Spoiled (us ++ [e]) := by
  obtain ⟨hus, u, hu, hs⟩ := h
  exact ⟨List.forall_mem_append.mpr ⟨hus, List.forall_mem_singleton.mpr hf⟩,
    u, List.mem_append_left _ hu, hs⟩

theorem Building.fallbackFails (h : Building us) : fallbackFails us = false := by
  rw [Konative.Jni.fallbackFails, List.any_eq_false]
  intro u hu
  rw [(h u hu).1]
  exact Bool.false_ne_true

/-- The plain loader is taken after something showed. -/
theorem triple_fallback (h : Spoiled us) :
    Prog.Triple next (At ms us false)
      (invoke .upgradeToResourceAwareLoader (.newLocalRef b)) (UpgradeEnds ms b) := by
  refine triple_askOptional (k := fun r ↦ pure r) _ rfl fun e he hp (r : Option Ref) hr ↦ ?_
  refine .pure fun s hs ↦ ⟨_, _, hs, .inr ⟨us, e, rfl, ?_, hp, h⟩, ?_⟩
  · exact congrArg Request.call he
  · have hfallback : e.isFallback = true := by rw [Event.isFallback, he]; rfl
    have hus : (us.any fun u ↦ u.isFallback && u.behaviour.failed) = false := by
      rw [List.any_eq_false]
      intro u hu
      rw [h.1 u hu]
      exact Bool.false_ne_true
    change r = e.result at hr
    rw [fallbackFails, List.any_append, hus, List.any_cons, List.any_nil, hfallback, hr,
      Event.result, Behaviour.failed]
    cases e.behaviour.ok <;> cases e.behaviour.raises <;> rfl

/-- The end of a scope changes nothing. -/
theorem upgradeEnds_scope (r a : Option Ref) :
    Prog.Triple next (UpgradeEnds ms b a) (resetLocal r) fun _ ↦ UpgradeEnds ms b a := by
  rintro s ⟨us, p, hs, h⟩
  exact (triple_resetLocal_at r s hs).mono fun _ t ht ↦ ⟨us, p, ht, h⟩

/-- What follows the upgrade. -/
theorem triple_afterUpgrade {r : Option Ref} {q : Native β}
    (hq : ∀ us p, Shape b us → fallbackFails us = (r.isNone || p) →
      Prog.Triple next (At ms us p) q Q) :
    Prog.Triple next (UpgradeEnds ms b r) q Q := by
  rintro s ⟨us, p, hs, hshape, hfails⟩
  exact hq us p hshape hfails s hs

/-- A call whose exception is looked at either spoils the upgrade or lets it go on. -/
theorem triple_build (h : Building us) {c : Call} (hf : c.isNewLocalRef = false)
    (hg : c.isGetObjectClass = false)
    (he : e.toRequest = ⟨.upgradeToResourceAwareLoader, c⟩) {r : Option Handle}
    (hr : r = e.result) {p q : Native β}
    (hp : Spoiled (us ++ [e]) → Prog.Triple next (At ms (us ++ [e]) false) p Q)
    (hq : Building (us ++ [e]) → r = some e.handle →
      Prog.Triple next (At ms (us ++ [e]) false) q Q) :
    Prog.Triple next (At ms (us ++ [e]) e.behaviour.raises)
      (checkAndClearException >>= fun b ↦ if (b || r.isNone) = true then p else q) Q := by
  have hfb : e.isFallback = false := by rw [Event.isFallback, he, hf]
  have hshows : e.shows = e.behaviour.failed := by
    rw [Event.shows, he, hg, Bool.not_false, Bool.and_true, Behaviour.failed]
  refine triple_look hr (fun hx ↦ hp (h.spoil hfb (hshows.trans hx))) fun hx ↦
    hq (h.snoc hfb (hshows.trans hx)) ?_
  rw [Behaviour.failed, Bool.or_eq_false_iff, Bool.not_eq_false'] at hx
  rw [hr, Event.result, hx.2]
  rfl

/-- The class of the loader is not looked at, but what it raised is when the method is. -/
theorem triple_loadClassLookup (h : Building us) (loader : Option Ref)
    {p : Native β} (q : Option MethodID → Native β)
    (hp : ∀ us, Spoiled us → Prog.Triple next (At ms us false) p Q)
    (hq : ∀ us method, Building us → Prog.Triple next (At ms us false) (q method) Q) :
    Prog.Triple next (At ms us false)
      (invoke .upgradeToResourceAwareLoader (.getObjectClass loader) >>=
        fun (loaderClass : Option Ref) ↦ invoke .upgradeToResourceAwareLoader
          (.getMethodID loaderClass "loadClass" "(Ljava/lang/String;)Ljava/lang/Class;") >>=
        fun (method : Option MethodID) ↦ resetLocal loaderClass >>= fun _ ↦
          checkAndClearException >>= fun b ↦
            if (b || method.isNone) = true then p else q method) Q := by
  refine triple_askOptional _ rfl fun e he _ (loaderClass : Option Ref) _ ↦ ?_
  refine triple_askOptional _ rfl fun e' he' _ (method : Option MethodID) hm ↦ ?_
  refine (triple_resetLocal_at loaderClass).bind fun _ ↦ triple_checkAndClear.bind fun b ↦ ?_
  change method = e'.result at hm
  have hf : e.isFallback = false := by rw [Event.isFallback, he]; rfl
  have hf' : e'.isFallback = false := by rw [Event.isFallback, he']; rfl
  have hshows : e.shows = e.behaviour.raises := by
    rw [Event.shows, he]
    exact (congrArg _ (Bool.and_false _)).trans (Bool.or_false _)
  have hshows' : e'.shows = (e'.behaviour.raises || method.isNone) := by
    rw [Event.shows, he', hm, Event.result]
    cases e'.behaviour.ok <;> rfl
  rintro s ⟨rfl, hs⟩
  refine Prog.Triple.ite (fun hx ↦ hp _ ?_) (fun hx ↦ hq _ method ?_) s hs
  · cases hr : e.behaviour.raises with
    | true => exact (h.spoil hf (hshows.trans hr)).snoc hf'
    | false =>
        refine (h.snoc hf (hshows.trans hr)).spoil hf' (hshows'.trans ?_)
        rw [hr] at hx
        exact hx
  · rw [Bool.not_eq_true, Bool.or_assoc, Bool.false_or, Bool.or_eq_false_iff] at hx
    exact (h.snoc hf (hshows.trans hx.1)).snoc hf' (hshows'.trans hx.2)

theorem triple_upgradeToResourceAwareLoader_at (b dexLoaderClass : Option Ref)
    (dexLoaderCtor : Option MethodID) (dexBufferForUpgrade realParentLoader : Option Ref) :
    Prog.Triple next (At ms [] false) (upgradeToResourceAwareLoader b dexLoaderClass dexLoaderCtor
      dexBufferForUpgrade realParentLoader) (UpgradeEnds ms b) := by
  have scope : ∀ r a : Option Ref, Prog.Triple next (UpgradeEnds ms b a) (resetLocal r)
      fun _ ↦ UpgradeEnds ms b a := upgradeEnds_scope
  have hnil : Building [] := fun u hu ↦ absurd hu List.not_mem_nil
  refine triple_askOptional _ rfl fun e he _ (providerName : Option Ref) hr ↦
    triple_scope (scope _) ?_
  refine triple_build hnil rfl rfl he hr triple_fallback fun h _ ↦ ?_
  refine triple_loadClassLookup h b _ (fun us ↦ triple_fallback) fun us loadClassMethod h ↦ ?_
  refine triple_askOptional _ rfl fun e he _ (providerClass : Option Ref) hr ↦
    triple_scope (scope _) ?_
  change providerClass = e.result at hr
  have hf : e.isFallback = false := by rw [Event.isFallback, he]; rfl
  have hshows : e.shows = (e.behaviour.raises || providerClass.isNone) := by
    rw [Event.shows, he, hr, Event.result]
    cases e.behaviour.ok <;> rfl
  refine (triple_exceptionCheck_at _).bind fun (pending : Bool) ↦ ?_
  rintro s ⟨rfl, hs⟩
  rw [Bool.false_or] at hs ⊢
  refine Prog.Triple.ite (fun hraises ↦ ?_) (fun hraises ↦ ?_) s hs
  · -- the dex has no provider
    refine (triple_exceptionClear_at _).bind fun _ ↦ triple_fallback (h.spoil hf ?_)
    rw [hshows, hraises, Bool.true_or]
  rw [Bool.not_eq_true] at hraises
  rw [hraises]
  refine .ite (fun hn ↦ triple_fallback (h.spoil hf ?_)) fun hn ↦ ?_
  · rw [hshows, hn, Bool.or_true]
  rw [Bool.not_eq_true] at hn
  replace h := h.snoc hf (by rw [hshows, hraises, hn]; rfl)
  refine triple_askOptional _ rfl fun e he _ (providerCtor : Option MethodID) hr ↦ ?_
  refine triple_build h rfl rfl he hr triple_fallback fun h _ ↦ ?_
  refine triple_askOptional _ rfl fun e he _ (providerInstance : Option Ref) hr ↦
    triple_scope (scope _) ?_
  refine triple_build h rfl rfl he hr triple_fallback fun h _ ↦ ?_
  refine triple_askOptional _ rfl fun e he _ (loader : Option Ref) hr ↦ ?_
  refine triple_build h rfl rfl he hr (fun h ↦ triple_scope (scope _) (triple_fallback h))
    fun h hr ↦ ?_
  change loader = _ at hr
  refine .pure fun s hs ↦ ⟨_, _, hs, .inl h, ?_⟩
  rw [h.fallbackFails, hr]
  rfl

end Upgrade

/-! ## The end of a load -/

section Load

variable {k : Nat} {ms us : List Event} {e e' : Event}

/-- Both promotions are made, and their results looked at together. -/
theorem Passed.promoted (h : Passed 15 ms us) (he : e.call.look = .promotion)
    (he' : e'.call.look = .promotion) :
    Ended (if e.behaviour.ok && e'.behaviour.ok then none else some .globalRefPromotionFailed)
      (ms ++ [e] ++ [e']) us := by
  have hst : steps[ms.length]? = some ⟨.globalRefPromotionFailed, .promotion⟩ := by
    rw [h.length]
    rfl
  have hst' : steps[(ms ++ [e]).length]? = some ⟨.globalRefPromotionFailed, .promotion⟩ := by
    rw [List.length_append, h.length]
    rfl
  have hlen : (ms ++ [e] ++ [e']).length = 17 := by
    rw [List.length_append, List.length_append, h.length]
    rfl
  have hfirst := noticed_snoc h.noticed hst e
  refine ⟨?_, fun _ ↦ hlen, (h.along.snoc hst he).snoc hst' he', fun _ ↦ hlen, ?_,
    fun hf ↦ ?_, (h.upgrade.snoc e).snoc e'⟩
  · rw [h.sound, if_neg Bool.false_ne_true]
    cases hok : e.behaviour.ok with
    | false =>
        change Jni.noticed (ms ++ [e]) = if !e.behaviour.ok then _ else _ at hfirst
        rw [hok] at hfirst
        rw [Jni.noticed, List.map_append]
        exact (first_mono (List.prefix_append ..) hfirst).symm
    | true =>
        change Jni.noticed (ms ++ [e]) = if !e.behaviour.ok then _ else _ at hfirst
        rw [hok] at hfirst
        rw [noticed_snoc hfirst hst' e']
        change _ = if !e'.behaviour.ok then _ else _
        cases e'.behaviour.ok <;> rfl
  · rw [List.dropLast_concat, ← h.length, List.take_left]
    exact h.noticed
  · rw [h.sound] at hf
    cases hf

theorem triple_resetGlobal_at {b : Bool} (f : Caller) (r : Option Ref) :
    Prog.Triple next (At ms us b) (resetGlobal f r) fun _ ↦ At ms us b := by
  cases r with
  | none => exact .pure fun _ hs ↦ hs
  | some r => exact triple_quiet _ _ nofun fun _ ↦ rfl

theorem triple_promote_at (h : Passed 15 ms us) (loadedObj application : Ref) :
    Prog.Triple next (At ms us false) (promote (some loadedObj) (some application)) Concluded := by
  refine triple_ask .globalRefClass (.newGlobalRef (some loadedObj)) rfl rfl
    fun e he (clazz : Option Ref) hc ↦ ?_
  refine triple_ask .globalRefObject (.newGlobalRef (some application)) rfl rfl
    fun e' he' (app : Option Ref) ha ↦ ?_
  have hlook : e.call.look = .promotion := by rw [he]; rfl
  have hlook' : e'.call.look = .promotion := by rw [he']; rfl
  have hend := h.promoted hlook hlook'
  have hnone : (clazz.isNone || app.isNone) = !(e.behaviour.ok && e'.behaviour.ok) := by
    change clazz = e.result at hc
    change app = e'.result at ha
    rw [hc, ha, Event.result, Event.result]
    cases e.behaviour.ok <;> cases e'.behaviour.ok <;> rfl
  refine .ite (fun hn ↦ ?_) fun hn ↦ ?_
  · rw [hnone, Bool.not_eq_true'] at hn
    rw [hn] at hend
    refine (triple_checkAndClear).bind fun _ ↦ ?_
    refine .pre (P := At (ms ++ [e] ++ [e']) us false) ?_ fun _ hs ↦ hs.2
    refine (triple_resetGlobal_at _ _).bind fun _ ↦ (triple_resetGlobal_at _ _).bind fun _ ↦ ?_
    exact triple_concluded hend
  · rw [hnone, Bool.not_eq_true, Bool.not_eq_false'] at hn
    rw [hn] at hend
    refine .pure fun s hs ↦ ?_
    rw [Concluded, hs.mandatory, hs.optional]
    exact hend

/-- The fallback failed: whatever is looked at next, the class is not found. -/
theorem Passed.late (h : Passed 11 ms []) (hus : fallbackFails us = true)
    (hup : Upgraded ms us) (he : e.call.look = .exception) :
    Ended (some .classNotFoundInDex) (ms ++ [e]) us := by
  have hst : steps[ms.length]? = some ⟨.classNotFoundInDex, .exception⟩ := by
    rw [h.length]
    rfl
  have hlen : (ms ++ [e]).length = 12 := by rw [List.length_append, h.length]; rfl
  refine ⟨?_, nofun, h.along.snoc hst he, fun hl ↦ ?_, ?_, fun _ ↦ hlen, hup.snoc e⟩
  · rw [hus]
    rfl
  · omega
  · rw [List.dropLast_concat, List.take_of_length_le (by rw [h.length]; decide)]
    exact h.noticed

theorem triple_loadClassFromDex_at (dexBytes dexSize : Nat) (fullyQualifiedClassName : String) :
    Prog.Triple next (At [] [] false) (loadClassFromDex dexBytes dexSize fullyQualifiedClassName)
      Concluded := by
  have scope := concluded_scope
  have h : Passed 0 [] [] := ⟨rfl, ⟨Nat.zero_le _, rfl⟩, rfl, rfl, .inl rfl⟩
  refine triple_ask _ _ rfl rfl fun e he (activityThreadClass : Option Ref) hr ↦
    triple_scope (scope _) ?_
  refine triple_step h rfl (by decide) he rfl hr triple_concluded fun h hr ↦ ?_
  obtain rfl : activityThreadClass = some e.handle := hr
  refine (triple_callStaticMethod_at _ _ _ _ h (by decide) rfl rfl).bind fun application ↦
    triple_scope (scope _) (triple_afterHelper fun ms app happ h ↦ ?_)
  subst happ
  refine (triple_callInstanceMethod_at _ _ _ _ h (by decide) rfl rfl rfl).bind fun parentLoader ↦
    triple_scope (scope _) (triple_afterHelper fun ms _ _ h ↦ ?_)
  refine triple_ask _ _ rfl rfl fun e he (dexBuffer : Option Ref) hr ↦
    triple_scope (scope _) ?_
  refine triple_step h rfl (by decide) he rfl hr triple_concluded fun h _ ↦ ?_
  refine triple_ask _ _ rfl rfl fun e he (dexLoaderClass : Option Ref) hr ↦
    triple_scope (scope _) ?_
  refine triple_step h rfl (by decide) he rfl hr triple_concluded fun h _ ↦ ?_
  refine triple_ask _ _ rfl rfl fun e he (ctor : Option MethodID) hr ↦ ?_
  refine triple_step h rfl (by decide) he rfl hr triple_concluded fun h _ ↦ ?_
  refine triple_ask _ _ rfl rfl fun n hn (dexClassLoader : Option Ref) hr ↦
    triple_scope (scope _) ?_
  refine triple_step h rfl (by decide) hn rfl hr triple_concluded fun h hr ↦ ?_
  obtain rfl : dexClassLoader = some n.handle := hr
  refine triple_ask _ _ rfl rfl fun e he (dexBufferForUpgrade : Option Ref) hr ↦
    triple_scope (scope _) ?_
  refine triple_step h rfl (by decide) he rfl hr triple_concluded fun h _ ↦ ?_
  refine (triple_upgradeToResourceAwareLoader_at _ _ _ _ _).bind fun effectiveLoader ↦
    triple_scope (scope _) (triple_afterUpgrade fun us p hshape hfails ↦ ?_)
  have hnew : n.call.isNewObject = true := by rw [hn]; rfl
  refine triple_ask _ _ rfl rfl fun e he (className : Option Ref) hr ↦
    triple_scope (scope _) ?_
  cases hf : fallbackFails us with
  | true =>
      have hend := h.late hf (upgraded_of_shape hnew hshape) (e := e) (by rw [he]; rfl)
      refine triple_checkAndClear.bind fun b ↦ ?_
      rintro s ⟨rfl, hs⟩
      refine Prog.Triple.ite (fun _ ↦ triple_concluded hend) (fun hb ↦ ?_) s hs
      have hloader : effectiveLoader = none := by
        rw [hf] at hfails
        cases effectiveLoader with
        | none => rfl
        | some r =>
            obtain rfl : true = p := hfails
            exact absurd rfl hb
      subst hloader
      exact triple_concluded hend
  | false =>
      rw [hf] at hfails
      obtain ⟨hloader, rfl⟩ : effectiveLoader.isNone = false ∧ p = false :=
        Bool.or_eq_false_iff.mp hfails.symm
      obtain ⟨loader, rfl⟩ := Option.isSome_iff_exists.mp (Option.isNone_eq_false_iff.mp hloader)
      have h : Passed 11 _ us :=
        ⟨h.length, h.along, h.noticed, hf, upgraded_of_shape hnew hshape⟩
      refine triple_step h rfl (by decide) he rfl hr triple_concluded fun h _ ↦ ?_
      refine (triple_callInstanceMethod_at _ _ _ _ h (by decide) rfl rfl rfl).bind fun loadedObj ↦
        triple_scope (scope _) (triple_afterHelper fun ms obj hobj h ↦ ?_)
      subst hobj
      exact triple_promote_at h obj app

/-- However the environment behaves, this is what a load comes to. -/
theorem loadRun_ended (dexBytes dexSize : Nat) (name : String) (σ : Nat → Behaviour) :
    Ended (outcome (loadRun dexBytes dexSize name σ).1)
      (mandatory (loadRun dexBytes dexSize name σ).2.calls)
      (optional (loadRun dexBytes dexSize name σ).2.calls) :=
  loadRun_spec (triple_loadClassFromDex_at dexBytes dexSize name) ⟨rfl, rfl, rfl⟩ σ

end Load

end Konative.Jni
