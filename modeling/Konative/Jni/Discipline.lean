import Konative.Jni.Ledger

/-!
# The exception and reference discipline of the dex loader

The module's rule is that what a call leaves pending is checked and cleared before any
further call.  The references obey it always (`Ledger`); the exceptions do unless the
environment raises one at a site that is not guarded, of which there are these: the
method lookup of `call_instance_method`, where the class is deleted before the check;
in `upgrade_to_resource_aware_loader` the class of the loader, which is not checked at
all, the lookup of `loadClass` after it, and the fallback's `NewLocalRef`; and the two
promotions, the first always and the second where both succeed.
-/

namespace Konative.Jni

open JNIEnv (next)

/-! ## The rule -/

/-- The call was made while an exception was pending, and is not one that may be. -/
def Event.breaksRule (e : Event) : Bool := e.pending && !e.call.isException

/-- What the module promises of a load that returned `result`. -/
structure Disciplined (result : Except DexLoadError LoadedDexClass) (s : JNIEnv) : Prop where
  rule : ∀ e ∈ s.calls, e.breaksRule = false
  methods : ∀ e ∈ s.calls, e.call.nullMethod = false
  settled : s.pending = false
  locals : ∀ r ∈ acquired s.calls, (deleted s.calls).count r = 1
  globals : ∀ e, result = .error e → ∀ r ∈ globalAcquired s.calls, r ∈ globalDeleted s.calls

/-- The sites after which another call is made before the check. -/
def Request.unguarded : Request → Bool
  | ⟨.callInstanceMethod, .getMethodID ..⟩ => true
  | ⟨.upgradeToResourceAwareLoader, .getObjectClass _⟩ => true
  | ⟨.upgradeToResourceAwareLoader, .getMethodID clazz name _⟩ =>
      clazz.isSome && name == "loadClass"
  | ⟨.upgradeToResourceAwareLoader, .newLocalRef _⟩ => true
  | ⟨.globalRefClass, .newGlobalRef _⟩ => true
  | _ => false

/-- An exception was left at a site that is not guarded. -/
def Event.leaks (e : Event) : Bool := e.unguarded && e.behaviour.raises

/-- What the environment did at the promotions. -/
def promotions (calls : List Event) : List Behaviour :=
  calls.filterMap fun e ↦ if e.call.makesGlobal then some e.behaviour else none

/-- The environment leaves no exception where it is not guarded against. -/
structure Guarded (calls : List Event) : Prop where
  sites : ∀ e ∈ calls, e.leaks = false
  promoted : ∀ x y, promotions calls = [x, y] → x.ok → y.ok → y.raises = false

/-! ## The states of a run -/

/-- Nothing has leaked, the rule is kept and the promotions are `ps`. -/
structure Calm (ps : List Behaviour) (s : JNIEnv) : Prop where
  sites : ∀ e ∈ s.calls, e.leaks = false
  rule : ∀ e ∈ s.calls, e.breaksRule = false
  promoted : promotions s.calls = ps

/-- Something has leaked. -/
def Leaked (s : JNIEnv) : Prop := ∃ e ∈ s.calls, e.leaks = true

/-- Something has leaked, and the rule is broken. -/
def Doomed (s : JNIEnv) : Prop := Leaked s ∧ ∃ e ∈ s.calls, e.breaksRule = true

/-- After a call that is about to be checked. -/
def Unchecked (ps : List Behaviour) (s : JNIEnv) : Prop := Calm ps s ∨ Doomed s

/-- Nothing is pending, unless the rule is broken. -/
def Checked (ps : List Behaviour) (s : JNIEnv) : Prop := (Calm ps s ∧ s.pending = false) ∨ Doomed s

/-- Nothing is pending but what has leaked. -/
def Fair (ps : List Behaviour) (s : JNIEnv) : Prop :=
  Checked ps s ∨ (Leaked s ∧ s.pending = true)

variable {ps : List Behaviour} {s : JNIEnv} {α β : Type}

theorem Checked.unchecked (h : Checked ps s) : Unchecked ps s := h.imp_left And.left

theorem Checked.fair (h : Checked ps s) : Fair ps s := .inl h

theorem Leaked.next (h : Leaked s) (r : Request) (x : Behaviour) : Leaked (next s r x).2 := by
  obtain ⟨e, he, hl⟩ := h
  exact ⟨e, List.mem_append_left _ he, hl⟩

theorem Doomed.next (h : Doomed s) (r : Request) (x : Behaviour) : Doomed (next s r x).2 := by
  obtain ⟨e, he, hb⟩ := h.2
  exact ⟨h.1.next r x, e, List.mem_append_left _ he, hb⟩

/-- What the promotions are after a call. -/
def Call.promotion (c : Call) (x : Behaviour) : List Behaviour := bif c.makesGlobal then [x] else []

theorem promotions_next (r : Request) (x : Behaviour) :
    promotions (next s r x).2.calls = promotions s.calls ++ r.call.promotion x := by
  rw [JNIEnv.next_calls, promotions, List.filterMap_append]
  apply congrArg (promotions s.calls ++ ·)
  change ([s.event r x].filterMap fun e ↦ if r.call.makesGlobal then some e.behaviour else none) = _
  rw [Call.promotion]
  cases r.call.makesGlobal <;> rfl

/-- A call that leaks nothing and breaks nothing keeps the calm. -/
theorem Calm.next (h : Calm ps s) {r : Request} {x : Behaviour}
    (hl : (s.event r x).leaks = false) (hb : (s.event r x).breaksRule = false) :
    Calm (ps ++ r.call.promotion x) (next s r x).2 where
  sites e he := by
    rcases List.mem_append.mp he with he | he
    · exact h.sites e he
    · rw [List.mem_singleton.mp he, hl]
  rule e he := by
    rcases List.mem_append.mp he with he | he
    · exact h.rule e he
    · rw [List.mem_singleton.mp he, hb]
  promoted := by rw [promotions_next, h.promoted]

/-- A call made while what has leaked is pending breaks the rule. -/
theorem doomed_of_pending (h : Leaked s) (hp : s.pending = true) {r : Request} {x : Behaviour}
    (hr : r.call.isException = false) : Doomed (next s r x).2 := by
  refine ⟨h.next r x, s.event r x, List.mem_append_right _ (List.mem_singleton.mpr rfl), ?_⟩
  change (s.pending && !r.call.isException) = true
  rw [hp, hr]
  rfl

/-- A guarded call is about to be checked. -/
theorem Fair.next_guarded (h : Fair ps s) {r : Request} {x : Behaviour}
    (hr : r.call.isException = false) (hu : r.unguarded = false) :
    Unchecked (ps ++ r.call.promotion x) (next s r x).2 := by
  rcases h with (⟨hc, hp⟩ | hd) | ⟨hl, hp⟩
  · refine .inl (hc.next ?_ ?_)
    · change (r.unguarded && x.raises) = false
      rw [hu, Bool.false_and]
    · change (s.pending && _) = false
      rw [hp, Bool.false_and]
  · exact .inr (hd.next r x)
  · exact .inr (doomed_of_pending hl hp hr)

/-- A call that is not guarded leaves nothing pending but what it leaks. -/
theorem Fair.next_unguarded (h : Fair ps s) {r : Request} {x : Behaviour}
    (hr : r.call.isException = false) (hu : r.unguarded = true)
    (hk : r.call.kind = .handle) :
    Fair (ps ++ r.call.promotion x) (next s r x).2 := by
  have hpa : (next s r x).2.pending = (s.pending || x.raises) := Call.pendingAfter_handle hk ..
  rcases h with (⟨hc, hp⟩ | hd) | ⟨hl, hp⟩
  · rw [hp, Bool.false_or] at hpa
    cases hx : x.raises with
    | false =>
        refine .inl (.inl ⟨hc.next ?_ ?_, hpa.trans hx⟩)
        · change (r.unguarded && x.raises) = false
          rw [hx, Bool.and_false]
        · change (s.pending && _) = false
          rw [hp, Bool.false_and]
    | true =>
        refine .inr ⟨⟨s.event r x, List.mem_append_right _ (List.mem_singleton.mpr rfl), ?_⟩,
          hpa.trans hx⟩
        change (r.unguarded && x.raises) = true
        rw [hu, hx]
        rfl
  · exact .inl (.inr (hd.next r x))
  · exact .inl (.inr (doomed_of_pending hl hp hr))

/-- A delete leaves what is pending. -/
theorem Fair.next_delete (h : Fair ps s) {r : Request} {x : Behaviour}
    (hr : r.call.isException = false) (hu : r.unguarded = false) (hk : r.call.kind = .void)
    (hp : r.call.promotion x = []) : Checked ps (next s r x).2 := by
  have h' := h.next_guarded (x := x) hr hu
  rw [hp, List.append_nil] at h'
  rcases h with (⟨-, hp⟩ | hd) | ⟨hl, hp⟩
  · exact h'.imp_left fun hc ↦ ⟨hc, (Call.pendingAfter_void hk hr ..).trans hp⟩
  · exact .inr (hd.next r x)
  · exact .inr (doomed_of_pending hl hp hr)

/-- The `Exception*` calls keep what is about to be checked so. -/
theorem Unchecked.next_exception (h : Unchecked ps s) {r : Request} {x : Behaviour}
    (hr : r.call.isException = true) (hu : r.unguarded = false) (hp : r.call.promotion x = []) :
    Unchecked ps (next s r x).2 := by
  rcases h with hc | hd
  · refine .inl ?_
    rw [← List.append_nil ps, ← hp]
    refine hc.next ?_ ?_
    · change (r.unguarded && x.raises) = false
      rw [hu, Bool.false_and]
    · change (s.pending && !r.call.isException) = false
      rw [hr, Bool.not_true, Bool.and_false]
  · exact .inr (hd.next r x)

/-! ## The rules -/

section Rules

variable {Q : β → JNIEnv → Prop}

/-- A guarded call, which is to be checked next. -/
theorem triple_acquire (f : Caller) (c : Call) (hr : c.isException = false)
    (hu : Request.unguarded ⟨f, c⟩ = false) (hg : c.makesGlobal = false)
    {k : c.kind.Answer → Native β} (hk : ∀ a, Prog.Triple next (Unchecked ps) (k a) Q) :
    Prog.Triple next (Fair ps) (invoke f c >>= k) Q := by
  refine Prog.Triple.bind (Q := fun _ ↦ Unchecked ps) (fun s hs x ↦ ?_) hk
  have h := hs.next_guarded (r := ⟨f, c⟩) (x := x) hr hu
  rwa [Call.promotion, hg, cond_false, List.append_nil] at h

/-- A call that is not guarded. -/
theorem triple_unguarded (f : Caller) (c : Call) (hr : c.isException = false)
    (hu : Request.unguarded ⟨f, c⟩ = true) (hk : c.kind = .handle) (hg : c.makesGlobal = false) :
    Prog.Triple next (Fair ps) (invoke f c) fun _ ↦ Fair ps := fun s hs x ↦ by
  have h := hs.next_unguarded (r := ⟨f, c⟩) (x := x) hr hu hk
  rwa [Call.promotion, hg, cond_false, List.append_nil] at h

/-- The reset of a `LocalRef` that has a reference, whatever was pending. -/
theorem triple_resetLocal_some (r : Ref) :
    Prog.Triple next (Fair ps) (resetLocal (some r)) fun _ ↦ Checked ps :=
  fun _ hs _ ↦ hs.next_delete (r := ⟨.localRef, .deleteLocalRef r⟩) rfl rfl rfl rfl

theorem triple_resetLocal (r : Option Ref) :
    Prog.Triple next (Checked ps) (resetLocal r) fun _ ↦ Checked ps := by
  cases r with
  | none => exact .pure fun _ hs ↦ hs
  | some r => exact (triple_resetLocal_some r).pre fun _ ↦ Checked.fair

theorem triple_resetLocal_fair (r : Option Ref) :
    Prog.Triple next (Fair ps) (resetLocal r) fun _ ↦ Fair ps := by
  cases r with
  | none => exact .pure fun _ hs ↦ hs
  | some r => exact (triple_resetLocal_some r).post fun _ _ ↦ Checked.fair

/-- What a reset keeps, the end of a scope does. -/
theorem triple_localRef {P I : JNIEnv → Prop} {p : Native α} {r : Option Ref}
    (hI : Prog.Triple next I (resetLocal r) fun _ ↦ I) (hp : Prog.Triple next P p fun _ ↦ I) :
    Prog.Triple next P (localRef r p) fun _ ↦ I :=
  hp.bind fun _ ↦ hI.bind fun _ ↦ .pure fun _ hs ↦ hs

/-- `ExceptionCheck` says what is pending. -/
theorem triple_exceptionCheck (f : Caller) :
    Prog.Triple next (Unchecked ps) (invoke f .exceptionCheck)
      fun (b : Bool) s ↦ Unchecked ps s ∧ s.pending = b :=
  fun _ hs _ ↦ ⟨hs.next_exception rfl (by cases f <;> rfl) rfl, rfl⟩

/-- `ExceptionClear` clears it. -/
theorem triple_exceptionClear (f : Caller) :
    Prog.Triple next (Unchecked ps) (invoke f .exceptionClear) fun _ ↦ Checked ps :=
  fun _ hs _ ↦ (hs.next_exception rfl (by cases f <;> rfl) rfl).imp_left fun hc ↦ ⟨hc, rfl⟩

/-- After the check nothing is pending. -/
theorem triple_check {k : Bool → Native β} (hk : ∀ b, Prog.Triple next (Checked ps) (k b) Q) :
    Prog.Triple next (Unchecked ps) (checkAndClearException >>= k) Q := by
  refine Prog.Triple.bind (Q := fun _ ↦ Checked ps) ?_ hk
  refine (triple_exceptionCheck _).bind fun (pending : Bool) ↦ .ite (fun _ ↦ ?_) fun hp ↦ ?_
  · refine Prog.Triple.bind (Q := fun _ ↦ Unchecked ps) ?_ fun _ ↦ ?_
    · exact fun _ hs _ ↦ hs.1.next_exception rfl rfl rfl
    · exact (triple_exceptionClear _).bind fun _ ↦ .pure fun _ hs ↦ hs
  · refine .pure fun s hs ↦ hs.1.imp_left fun hc ↦ ⟨hc, ?_⟩
    rw [hs.2]
    exact Bool.not_eq_true _ ▸ hp

end Rules

/-! ## The helpers and the loader -/

theorem triple_callStaticMethod (clazz : Option Ref) (name signature : String)
    (args : List (Option Ref)) :
    Prog.Triple next (Checked ps) (callStaticMethod clazz name signature args)
      fun _ ↦ Checked ps := by
  refine .ite (fun _ ↦ .pure fun _ hs ↦ hs) fun _ ↦ .pre ?_ fun _ ↦ Checked.fair
  refine triple_acquire _ _ rfl rfl rfl fun method ↦ triple_check fun b ↦ ?_
  refine .ite (fun _ ↦ .pure fun _ hs ↦ hs) fun _ ↦ .pre ?_ fun _ ↦ Checked.fair
  exact triple_acquire _ _ rfl rfl rfl fun result ↦ triple_check fun _ ↦ .pure fun _ hs ↦ hs

theorem triple_callInstanceMethod (obj : Option Ref) (name signature : String)
    (args : List (Option Ref)) :
    Prog.Triple next (Checked ps) (callInstanceMethod obj name signature args)
      fun _ ↦ Checked ps := by
  refine .ite (fun _ ↦ .pure fun _ hs ↦ hs) fun _ ↦ .pre ?_ fun _ ↦ Checked.fair
  refine triple_acquire _ _ rfl rfl rfl fun (clazz : Option Ref) ↦ triple_check fun b ↦ ?_
  refine .ite (fun _ ↦ (triple_resetLocal clazz).bind fun _ ↦ .pure fun _ hs ↦ hs) fun hc ↦ ?_
  cases clazz with
  | none => exact absurd (Bool.or_true _) hc
  | some clazz =>
      refine .bind (.pre (triple_unguarded _ _ rfl rfl rfl rfl) fun _ ↦ Checked.fair)
        fun (method : Option MethodID) ↦ (triple_resetLocal_some clazz).bind fun _ ↦ ?_
      refine .pre (triple_check fun b ↦ ?_) fun _ ↦ Checked.unchecked
      refine .ite (fun _ ↦ .pure fun _ hs ↦ hs) fun _ ↦ .pre ?_ fun _ ↦ Checked.fair
      exact triple_acquire _ _ rfl rfl rfl fun result ↦ triple_check fun _ ↦ .pure fun _ hs ↦ hs

private theorem triple_newLocalRef (r : Option Ref) :
    Prog.Triple next (Fair ps) (invoke .upgradeToResourceAwareLoader (.newLocalRef r))
      fun _ ↦ Fair ps :=
  triple_unguarded _ _ rfl rfl rfl rfl

/-- The lookup of `loadClass` is guarded only where there is no class to delete. -/
private theorem triple_loadClassMethod {Q : β → JNIEnv → Prop} (loaderClass : Option Ref)
    {k : Option MethodID → Native β} (hk : ∀ m, Prog.Triple next (Unchecked ps) (k m) Q) :
    Prog.Triple next (Fair ps)
      (invoke .upgradeToResourceAwareLoader
        (.getMethodID loaderClass "loadClass" "(Ljava/lang/String;)Ljava/lang/Class;") >>=
          fun method ↦ resetLocal loaderClass >>= fun _ ↦ k method) Q := by
  cases loaderClass with
  | none => exact triple_acquire _ _ rfl rfl rfl fun method ↦ hk method
  | some loaderClass =>
      apply (triple_unguarded _ _ rfl (by simp [Request.unguarded]) rfl rfl).bind
      intro method
      exact (triple_resetLocal_some loaderClass).bind fun _ ↦
        (hk method).pre fun _ ↦ Checked.unchecked

theorem triple_upgradeToResourceAwareLoader (bootstrapLoader dexLoaderClass : Option Ref)
    (dexLoaderCtor : Option MethodID) (dexBufferForUpgrade realParentLoader : Option Ref) :
    Prog.Triple next (Checked ps) (upgradeToResourceAwareLoader bootstrapLoader dexLoaderClass
      dexLoaderCtor dexBufferForUpgrade realParentLoader) fun _ ↦ Fair ps := by
  have fallback : Prog.Triple next (Checked ps)
      (invoke .upgradeToResourceAwareLoader (.newLocalRef bootstrapLoader)) fun _ ↦ Fair ps :=
    .pre (triple_newLocalRef bootstrapLoader) fun _ ↦ Checked.fair
  have scope : ∀ r, Prog.Triple next (Fair ps) (resetLocal r) fun _ ↦ Fair ps :=
    triple_resetLocal_fair
  refine .pre ?_ fun _ ↦ Checked.fair
  refine triple_acquire _ _ rfl rfl rfl fun (providerName : Option Ref) ↦
    triple_localRef (scope _) ?_
  refine triple_check fun b ↦ .ite (fun _ ↦ fallback) fun _ ↦ .pre ?_ fun _ ↦ Checked.fair
  apply (triple_unguarded _ _ rfl rfl rfl rfl).bind
  intro (loaderClass : Option Ref)
  apply triple_loadClassMethod loaderClass
  intro loadClassMethod
  refine triple_check fun b ↦ .ite (fun _ ↦ fallback) fun _ ↦ .pre ?_ fun _ ↦ Checked.fair
  refine triple_acquire _ _ rfl rfl rfl fun (providerClass : Option Ref) ↦
    triple_localRef (scope _) ?_
  refine (triple_exceptionCheck _).bind fun (pending : Bool) ↦ .ite (fun _ ↦ ?_) fun hp ↦ ?_
  · exact .pre ((triple_exceptionClear _).bind fun _ ↦ fallback) fun _ hs ↦ hs.1
  refine .pre (P := Checked ps) ?_ fun s hs ↦ hs.1.imp_left fun hc ↦
    ⟨hc, hs.2.trans (Bool.not_eq_true _ ▸ hp)⟩
  refine .ite (fun _ ↦ fallback) fun _ ↦ .pre ?_ fun _ ↦ Checked.fair
  refine triple_acquire _ _ rfl (by simp [Request.unguarded]) rfl
    fun (providerCtor : Option MethodID) ↦ ?_
  refine triple_check fun b ↦ .ite (fun _ ↦ fallback) fun _ ↦ .pre ?_ fun _ ↦ Checked.fair
  refine triple_acquire _ _ rfl rfl rfl fun (providerInstance : Option Ref) ↦
    triple_localRef (scope _) ?_
  refine triple_check fun b ↦ .ite (fun _ ↦ fallback) fun _ ↦ .pre ?_ fun _ ↦ Checked.fair
  apply triple_acquire _ _ rfl rfl rfl
  intro (loader : Option Ref)
  refine triple_check fun b ↦ .ite (fun _ ↦ ?_) fun _ ↦ .pure fun _ ↦ Checked.fair
  exact triple_localRef (scope _) fallback

/-! ## The end of a load -/

/-- A guarded run that kept the rule, or one that was not guarded and shows it. -/
def Final (s : JNIEnv) : Prop :=
  (Guarded s.calls ∧ (∀ e ∈ s.calls, e.breaksRule = false) ∧ s.pending = false) ∨
    (¬ Guarded s.calls ∧ (s.pending = true ∨ ∃ e ∈ s.calls, e.breaksRule = true))

theorem Leaked.not_guarded (h : Leaked s) : ¬ Guarded s.calls := fun hg ↦ by
  obtain ⟨e, he, hl⟩ := h
  rw [hg.sites e he] at hl
  cases hl

theorem Doomed.final (h : Doomed s) : Final s := .inr ⟨h.1.not_guarded, .inr h.2⟩

/-- In the calm only the promotions can be unguarded. -/
theorem Calm.guarded_iff (h : Calm ps s) :
    Guarded s.calls ↔ ∀ x y, ps = [x, y] → x.ok → y.ok → y.raises = false := by
  constructor
  · exact fun hg x y hps ↦ hg.promoted x y (h.promoted.trans hps)
  · exact fun hps ↦ ⟨h.sites, fun x y hxy ↦ hps x y (h.promoted.symm.trans hxy)⟩

theorem Checked.final (h : Checked ps s)
    (hps : ∀ x y, ps = [x, y] → x.ok → y.ok → y.raises = false) : Final s := by
  rcases h with ⟨hc, hp⟩ | hd
  · exact .inl ⟨hc.guarded_iff.mpr hps, hc.rule, hp⟩
  · exact hd.final

/-- The end of a scope keeps what the run comes to. -/
theorem triple_resetLocal_final (r : Option Ref) :
    Prog.Triple next Final (resetLocal r) fun _ ↦ Final := by
  cases r with
  | none => exact .pure fun _ hs ↦ hs
  | some r =>
      intro s hs x
      have hp : promotions (next s ⟨.localRef, .deleteLocalRef r⟩ x).2.calls = promotions s.calls :=
        (promotions_next ..).trans (List.append_nil _)
      have hg : Guarded (next s ⟨.localRef, .deleteLocalRef r⟩ x).2.calls ↔ Guarded s.calls := by
        refine ⟨fun h ↦ ⟨fun e he ↦ h.sites e (List.mem_append_left _ he), hp ▸ h.promoted⟩,
          fun h ↦ ⟨fun e he ↦ ?_, hp.symm ▸ h.promoted⟩⟩
        rcases List.mem_append.mp he with he | he
        · exact h.sites e he
        · rw [List.mem_singleton.mp he]
          rfl
      refine hs.imp (fun ⟨h, hb, hps⟩ ↦ ⟨hg.mpr h, fun e he ↦ ?_, hps⟩) fun ⟨h, hb⟩ ↦
        ⟨hg.not.mpr h, hb.imp_right fun ⟨e, he, hb⟩ ↦ ⟨e, List.mem_append_left _ he, hb⟩⟩
      rcases List.mem_append.mp he with he | he
      · exact hb e he
      · rw [List.mem_singleton.mp he]
        change (s.pending && _) = false
        rw [hps, Bool.false_and]

/-- The reset of a `GlobalRef`. -/
theorem triple_resetGlobal (f : Caller) (r : Option Ref) :
    Prog.Triple next (Checked ps) (resetGlobal f r) fun _ ↦ Checked ps := by
  cases r with
  | none => exact .pure fun _ hs ↦ hs
  | some r =>
      exact fun _ hs _ ↦ hs.fair.next_delete (r := ⟨f, .deleteGlobalRef r⟩) rfl
        (by cases f <;> rfl) rfl rfl

/-- The promotion of the class is never checked alone, that of the application only where
one of the two failed. -/
theorem triple_promote (loadedObj application : Ref) :
    Prog.Triple next (Checked []) (promote (some loadedObj) (some application))
      fun _ ↦ Final := by
  refine .bind (Q := fun (a : Option Ref) s ↦ ∃ x : Behaviour, a.isSome = x.ok ∧ Fair [x] s)
    (fun s hs x ↦ ⟨x, ?_, ?_⟩) fun clazz ↦ ?_
  · change (if x.ok then some _ else none).isSome = x.ok
    cases x.ok <;> rfl
  · exact hs.fair.next_unguarded (r := ⟨.globalRefClass, .newGlobalRef _⟩) rfl rfl rfl
  refine .bind (Q := fun (b : Option Ref) s ↦ ∃ x y : Behaviour, clazz.isSome = x.ok ∧
    b.isSome = y.ok ∧ (Doomed s ∨ (Calm [x, y] s ∧ s.pending = y.raises)))
    (fun s ⟨x, hx, hs⟩ y ↦ ⟨x, y, hx, ?_, ?_⟩) fun application s ⟨x, y, hx, hy, hs⟩ ↦ ?_
  · change (if y.ok then some _ else none).isSome = y.ok
    cases y.ok <;> rfl
  · have h := hs.next_guarded (r := ⟨.globalRefObject, .newGlobalRef (some application)⟩)
      (x := y) rfl rfl
    rcases hs with (⟨-, hp⟩ | hd) | ⟨hl, hp⟩
    · refine h.symm.imp_right fun hc ↦ ⟨hc, ?_⟩
      change (s.pending || y.raises) = y.raises
      rw [hp, Bool.false_or]
    · exact .inl (hd.next _ y)
    · exact .inl (doomed_of_pending hl hp rfl)
  · refine Prog.Triple.ite (P := fun t ↦ t = s) (fun hn ↦ ?_) (fun hn ↦ ?_) s rfl
    · -- one of them failed, so what is pending is checked
      refine .pre (P := Unchecked [x, y]) (triple_check fun _ ↦ ?_) fun t ht ↦
        ht ▸ hs.symm.imp_left And.left
      refine (triple_resetGlobal _ clazz).bind fun _ ↦ (triple_resetGlobal _ application).bind
        fun _ ↦ .pure fun t ht ↦ ht.final fun x' y' hxy hx' hy' ↦ ?_
      obtain ⟨rfl, rfl⟩ : x = x' ∧ y = y' := by simpa using hxy
      rw [Bool.or_eq_true, Option.isNone_iff_eq_none, Option.isNone_iff_eq_none] at hn
      rcases hn with rfl | rfl
      · exact absurd (hx.trans hx') nofun
      · exact absurd (hy.trans hy') nofun
    · -- both succeeded, and nothing is checked
      refine .pure fun t ht ↦ ht ▸ ?_
      rcases hs with hd | ⟨hc, hp⟩
      · exact hd.final
      · cases hr : y.raises with
        | false =>
            apply Checked.final (.inl ⟨hc, hp.trans hr⟩)
            intro x' y' hxy _ _
            obtain ⟨rfl, rfl⟩ : x = x' ∧ y = y' := by simpa using hxy
            exact hr
        | true =>
            refine .inr ⟨hc.guarded_iff.not.mpr fun h ↦ ?_, .inl (hp.trans hr)⟩
            rw [Bool.or_eq_true, not_or, Bool.not_eq_true, Bool.not_eq_true] at hn
            have hx' : x.ok = true := by rw [← hx, ← Option.not_isNone, hn.1]; rfl
            have hy' : y.ok = true := by rw [← hy, ← Option.not_isNone, hn.2]; rfl
            exact absurd (hr.symm.trans (h x y rfl hx' hy')) nofun

/-- However the environment behaves, a load ends in a final state. -/
theorem triple_loadClassFromDex (dexBytes dexSize : Nat) (fullyQualifiedClassName : String) :
    Prog.Triple next (Checked []) (loadClassFromDex dexBytes dexSize fullyQualifiedClassName)
      fun _ ↦ Final := by
  have fail : ∀ e : DexLoadError, Prog.Triple next (Checked [])
      (pure (.error e) : Native (Except DexLoadError LoadedDexClass)) fun _ ↦ Final := fun e ↦
    .pure fun s hs ↦ hs.final fun x y h ↦ nomatch h
  have scope := triple_resetLocal_final
  refine .pre ?_ fun _ ↦ Checked.fair
  refine triple_acquire _ _ rfl rfl rfl fun (activityThreadClass : Option Ref) ↦
    triple_localRef (scope _) ?_
  refine triple_check fun b ↦ .ite (fun _ ↦ fail _) fun _ ↦ ?_
  refine (triple_callStaticMethod _ _ _ _).bind fun application ↦ triple_localRef (scope _) ?_
  refine .ite (fun _ ↦ fail _) fun happ ↦ ?_
  refine (triple_callInstanceMethod _ _ _ _).bind fun parentLoader ↦ triple_localRef (scope _) ?_
  refine .ite (fun _ ↦ fail _) fun _ ↦ .pre ?_ fun _ ↦ Checked.fair
  refine triple_acquire _ _ rfl rfl rfl fun (dexBuffer : Option Ref) ↦
    triple_localRef (scope _) ?_
  refine triple_check fun b ↦ .ite (fun _ ↦ fail _) fun _ ↦ .pre ?_ fun _ ↦ Checked.fair
  refine triple_acquire _ _ rfl rfl rfl fun (dexLoaderClass : Option Ref) ↦
    triple_localRef (scope _) ?_
  refine triple_check fun b ↦ .ite (fun _ ↦ fail _) fun _ ↦ .pre ?_ fun _ ↦ Checked.fair
  apply triple_acquire _ _ rfl rfl rfl
  intro (ctor : Option MethodID)
  refine triple_check fun b ↦ .ite (fun _ ↦ fail _) fun _ ↦ .pre ?_ fun _ ↦ Checked.fair
  refine triple_acquire _ _ rfl rfl rfl fun (dexClassLoader : Option Ref) ↦
    triple_localRef (scope _) ?_
  refine triple_check fun b ↦ .ite (fun _ ↦ fail _) fun _ ↦ .pre ?_ fun _ ↦ Checked.fair
  refine triple_acquire _ _ rfl rfl rfl fun (dexBufferForUpgrade : Option Ref) ↦
    triple_localRef (scope _) ?_
  refine triple_check fun b ↦ .ite (fun _ ↦ fail _) fun _ ↦ ?_
  refine (triple_upgradeToResourceAwareLoader _ _ _ _ _).bind fun effectiveLoader ↦
    triple_localRef (scope _) ?_
  -- what the fallback left pending is still there
  refine triple_acquire _ _ rfl rfl rfl fun (className : Option Ref) ↦
    triple_localRef (scope _) ?_
  refine triple_check fun b ↦ .ite (fun _ ↦ fail _) fun _ ↦ ?_
  refine (triple_callInstanceMethod _ _ _ _).bind fun loadedObj ↦ triple_localRef (scope _) ?_
  refine .ite (fun _ ↦ fail _) fun hobj ↦ ?_
  cases application with
  | none => exact absurd rfl happ
  | some application =>
      cases loadedObj with
      | none => exact absurd rfl hobj
      | some loadedObj => exact triple_promote loadedObj application

/-- The run of a load against the behaviour of the environment. -/
def loadRun (dexBytes dexSize : Nat) (fullyQualifiedClassName : String) (σ : Nat → Behaviour) :
    Except DexLoadError LoadedDexClass × JNIEnv :=
  (loadClassFromDex dexBytes dexSize fullyQualifiedClassName).run next σ (.start 0 false)

/-- What a run of a load ends with. -/
theorem loadRun_spec {Q : Except DexLoadError LoadedDexClass → JNIEnv → Prop}
    {P : JNIEnv → Prop} {dexBytes dexSize : Nat} {fullyQualifiedClassName : String}
    (h : Prog.Triple next P (loadClassFromDex dexBytes dexSize fullyQualifiedClassName) Q)
    (hP : P (.start 0 false)) (σ : Nat → Behaviour) :
    Q (loadRun dexBytes dexSize fullyQualifiedClassName σ).1
      (loadRun dexBytes dexSize fullyQualifiedClassName σ).2 :=
  (h _ hP).run σ

/-- However the environment behaves, a load is disciplined if and only if the environment
leaves no exception at a site that is not guarded. -/
theorem loadRun_disciplined_iff (dexBytes dexSize : Nat) (fullyQualifiedClassName : String)
    (σ : Nat → Behaviour) :
    Disciplined (loadRun dexBytes dexSize fullyQualifiedClassName σ).1
        (loadRun dexBytes dexSize fullyQualifiedClassName σ).2 ↔
      Guarded (loadRun dexBytes dexSize fullyQualifiedClassName σ).2.calls := by
  have hnil : ∀ {p : Event → Prop}, ∀ e ∈ (JNIEnv.start 0 false).calls, p e := fun e he ↦
    absurd he List.not_mem_nil
  have hstart : Checked [] (.start 0 false) := .inl ⟨⟨hnil, hnil, rfl⟩, rfl⟩
  have hempty : Ledger (0 + 0) (0 + 0) (.start 0 false) := ⟨rfl, rfl, hnil⟩
  have hfinal := loadRun_spec (triple_loadClassFromDex dexBytes dexSize fullyQualifiedClassName)
    hstart σ
  have hledger := loadRun_spec
    (owns_loadClassFromDex dexBytes dexSize fullyQualifiedClassName 0 0) hempty σ
  have hnodup := acquired_nodup
    (handles_nodup (loadClassFromDex dexBytes dexSize fullyQualifiedClassName) 0 false σ)
  rw [← loadRun] at hnodup
  constructor
  · rintro ⟨hrule, -, hp, -, -⟩
    rcases hfinal with ⟨hg, -⟩ | ⟨-, hp' | ⟨e, he, hb⟩⟩
    · exact hg
    · rw [hp] at hp'
      cases hp'
    · rw [hrule e he] at hb
      cases hb
  · intro hg
    obtain ⟨-, hrule, hp⟩ : _ ∧ _ := hfinal.resolve_right fun h ↦ h.1 hg
    refine ⟨hrule, hledger.methods, hp, fun r hr ↦ ?_, fun e he r hr ↦ ?_⟩
    · have hl := hledger.locals
      rw [add_zero, add_zero] at hl
      rw [← (Multiset.coe_eq_coe.mp hl).count_eq r]
      exact List.count_eq_one_of_mem hnodup hr
    · have hl := hledger.globals
      rw [he] at hl
      change _ = _ + (0 + (0 + 0)) at hl
      rw [add_zero, add_zero, add_zero] at hl
      exact (Multiset.coe_eq_coe.mp hl).mem_iff.mp hr

/-- The lookup of `getClassLoader` throws, and the class is deleted before the check. -/
theorem lookupThrows_undisciplined :
    ¬ ∀ (dexBytes dexSize : Nat) (fullyQualifiedClassName : String) (σ : Nat → Behaviour),
      Disciplined (loadRun dexBytes dexSize fullyQualifiedClassName σ).1
        (loadRun dexBytes dexSize fullyQualifiedClassName σ).2 := by
  intro h
  let σ : Nat → Behaviour := fun n ↦ if n = 8 then ⟨false, true, ""⟩ else ⟨true, false, ""⟩
  have hb : (loadRun 0 0 "" σ).2.calls.any Event.breaksRule = true := by decide
  obtain ⟨e, he, hb⟩ := List.any_eq_true.mp hb
  rw [(h 0 0 "" σ).rule e he] at hb
  cases hb

end Konative.Jni
