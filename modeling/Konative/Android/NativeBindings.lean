import Konative.Android.NativeStream
import Konative.App.Systems
import Konative.Lib.Assoc

/-!
# The native methods as Kotlin calls them

Every call of a native method goes through a wrapper that catches
`UnsatisfiedLinkError`: where `RegisterNatives` did not bind the method, the wrapper logs
that once, under a tag of its own, and a query answers what it answered last.  A `Shell`
is the process of Kotlin with the native side behind these wrappers; which methods are
bound, and what the native side is, are parameters.

What Kotlin asks for is settled without the native side (`attempted`): the Activities, the
owners and the frame ticker are those of `EntryPoint`, whose `native` here is what was
asked for.  `degrades` says what a method that is not bound changes, and that it is
nothing else.
-/

namespace Konative.Android

open App

variable {N F : Type}

/-! ## The methods -/

/-- The native methods of `KonativeEntryPoint`. -/
inductive NativeMethod
  | nativeDispatchLifecycle
  | nativeTick
  | nativeGetTickCount
  | nativeDispatchTouchDown
  | nativeDispatchTouchMove
  | nativeDispatchTouchUp
  | nativeGetTouchCount
  | nativeGetFollowerX
  | nativeGetFollowerY
  | nativeDispatchWindowResized
  | nativeDispatchWindowFocusChanged
  | nativeDispatchKeyEvent
deriving DecidableEq, Repr

namespace NativeMethod

/-- What its wrapper logs a failure under. -/
def tag : NativeMethod → String
  | nativeDispatchLifecycle => "dispatchToNative"
  | nativeTick => "dispatchTickToNative"
  | nativeGetTickCount => "queryTickCountFromNative"
  | nativeDispatchTouchDown => "dispatchTouchDownToNative"
  | nativeDispatchTouchMove => "dispatchTouchMoveToNative"
  | nativeDispatchTouchUp => "dispatchTouchUpToNative"
  | nativeGetTouchCount => "queryTouchCountFromNative"
  | nativeGetFollowerX => "queryFollowerXFromNative"
  | nativeGetFollowerY => "queryFollowerYFromNative"
  | nativeDispatchWindowResized => "dispatchWindowResizedToNative"
  | nativeDispatchWindowFocusChanged => "dispatchWindowFocusChangedToNative"
  | nativeDispatchKeyEvent => "dispatchKeyEventToNative"

end NativeMethod

/-- `AndroidLifecycleEvent`, which both sides have. -/
inductive AndroidLifecycleEvent
  | started
  | resumed
  | paused
  | destroyed
deriving DecidableEq, Repr

namespace AndroidLifecycleEvent

/-- Its number in `KonativeEntryPoint.kt`. -/
def code : AndroidLifecycleEvent → Int32
  | started => 0
  | resumed => 1
  | paused => 2
  | destroyed => 3

/-- The `switch` of `native_dispatch_lifecycle_event`; an unknown number is logged. -/
def ofCode (event : Int32) : Option AndroidLifecycleEvent :=
  if event = 0 then some started
  else if event = 1 then some resumed
  else if event = 2 then some paused
  else if event = 3 then some destroyed
  else none

/-- The two sides agree on the numbers. -/
theorem ofCode_code (e : AndroidLifecycleEvent) : ofCode e.code = some e := by cases e <;> rfl

end AndroidLifecycleEvent

/-- What Kotlin tells the native side. -/
inductive Request (F : Type)
  | dispatchLifecycle (event : Int32)
  | tick (deltaSeconds : F)
  | touchDown (pointerId : Int32) (x y : F)
  | touchMove (pointerId : Int32) (x y : F)
  | touchUp (pointerId : Int32) (x y : F)
  | windowResized (width height : Int32)
  | windowFocusChanged (hasFocus : Bool)
  | keyEvent (keyCode : Int32) (isDown : Bool)

/-- What it asks the native side. -/
inductive Query
  | tickCount
  | touchCount
  | followerX
  | followerY
deriving DecidableEq, Repr

/-- A call of a native method. -/
inductive NativeOp (F : Type)
  | tell (q : Request F)
  | ask (q : Query)

/-- The method that a request is. -/
def Request.method : Request F → NativeMethod
  | dispatchLifecycle _ => .nativeDispatchLifecycle
  | tick _ => .nativeTick
  | touchDown .. => .nativeDispatchTouchDown
  | touchMove .. => .nativeDispatchTouchMove
  | touchUp .. => .nativeDispatchTouchUp
  | windowResized .. => .nativeDispatchWindowResized
  | windowFocusChanged _ => .nativeDispatchWindowFocusChanged
  | keyEvent .. => .nativeDispatchKeyEvent

/-- The method that a query is. -/
def Query.method : Query → NativeMethod
  | tickCount => .nativeGetTickCount
  | touchCount => .nativeGetTouchCount
  | followerX => .nativeGetFollowerX
  | followerY => .nativeGetFollowerY

/-- The method that a call is of. -/
def NativeOp.method : NativeOp F → NativeMethod
  | tell q => q.method
  | ask q => q.method

/-- The message of a wrapper that failed. -/
def NativeOp.message : NativeOp F → String
  | tell (.dispatchLifecycle event) =>
      "dispatchToNative: nativeDispatchLifecycle unavailable (event=" ++ toString event.toInt ++
        ") - the C++ ECS/events core will not see this transition; Compose is unaffected."
  | tell (.tick _) =>
      "dispatchTickToNative: nativeTick unavailable - the C++ ECS/systems side " ++
        "will not receive real per-frame ticks; Compose rendering is unaffected."
  | tell (.touchDown ..) =>
      "dispatchTouchDownToNative: nativeDispatchTouchDown unavailable - the " ++
        "C++ ECS/events core will not see this touch; Compose rendering is unaffected."
  | tell (.touchMove ..) =>
      "dispatchTouchMoveToNative: nativeDispatchTouchMove unavailable - the " ++
        "C++ ECS/events core will not see this touch; Compose rendering is unaffected."
  | tell (.touchUp ..) =>
      "dispatchTouchUpToNative: nativeDispatchTouchUp unavailable - the C++ " ++
        "ECS/events core will not see this touch; Compose rendering is unaffected."
  | tell (.windowResized ..) =>
      "dispatchWindowResizedToNative: nativeDispatchWindowResized unavailable " ++
        "- the C++ ECS/events core will not see this resize; Compose rendering is unaffected."
  | tell (.windowFocusChanged _) =>
      "dispatchWindowFocusChangedToNative: nativeDispatchWindowFocusChanged " ++
        "unavailable - the C++ ECS/events core will not see this focus change; Compose " ++
        "rendering is unaffected."
  | tell (.keyEvent ..) =>
      "dispatchKeyEventToNative: nativeDispatchKeyEvent unavailable - the C++ " ++
        "ECS/events core will not see this key event; Compose rendering is unaffected."
  | ask .tickCount =>
      "queryTickCountFromNative: nativeGetTickCount unavailable - the UI will " ++
        "not show a live tick count; Compose rendering is otherwise unaffected."
  | ask .touchCount =>
      "queryTouchCountFromNative: nativeGetTouchCount unavailable - the UI " ++
        "will not show a live touch count; Compose rendering is otherwise unaffected."
  | ask .followerX =>
      "queryFollowerXFromNative: nativeGetFollowerX unavailable - the follower dot " ++
        "will not move; Compose rendering is otherwise unaffected."
  | ask .followerY =>
      "queryFollowerYFromNative: nativeGetFollowerY unavailable - the follower dot " ++
        "will not move; Compose rendering is otherwise unaffected."

/-! ## The native side -/

/-- What is behind the native methods. -/
structure NativeSide (N F : Type) where
  /-- Where a request may leave it: its own threads take steps meanwhile. -/
  receive : Request F → N → N → Prop
  /-- Where they may leave it between two calls. -/
  background : N → N → Prop
  tickCount : N → Int64
  touchCount : N → Int64
  followerX : N → F
  followerY : N → F

/-- `tickCountDisplay` and its siblings, which Compose renders. -/
structure Displays (F : Type) where
  tickCountDisplay : Int64
  touchCountDisplay : Int64
  followerXDisplay : F
  followerYDisplay : F

/-- Before any query. -/
def Displays.initial (o : FloatOps F) : Displays F := ⟨0, 0, o.ofInt 0, o.ofInt 0⟩

/-- Put the answer to a query on display. -/
def Query.answer (side : NativeSide N F) (n : N) (d : Displays F) : Query → Displays F
  | tickCount => { d with tickCountDisplay := side.tickCount n }
  | touchCount => { d with touchCountDisplay := side.touchCount n }
  | followerX => { d with followerXDisplay := side.followerX n }
  | followerY => { d with followerYDisplay := side.followerY n }

/-! ## The shell -/

/-- The process of Kotlin, and the native side. -/
structure Shell (N F : Type) where
  /-- The callbacks object, the ticker and the Activities; `native` is what was asked for. -/
  ui : EntryPoint
  display : Displays F
  loggedNativeBindingFailures : List String
  /-- The messages logged. -/
  log : List String
  native : N

namespace Shell

/-- Before any Activity. -/
def initial (o : FloatOps F) (native : N) : Shell N F where
  ui := .initial
  display := .initial o
  loggedNativeBindingFailures := []
  log := []
  native := native

/-- `logNativeBindingFailureOnce(tag, message, throwable)`. -/
def logNativeBindingFailureOnce (tag message : String) (s : Shell N F) : Shell N F :=
  if tag ∈ s.loggedNativeBindingFailures then s
  else
    { s with
      loggedNativeBindingFailures := s.loggedNativeBindingFailures ++ [tag]
      log := s.log ++ [message] }

/-- A call through its wrapper.  A query that fails assigns the display to itself. -/
inductive Call (bound : NativeMethod → Bool) (side : NativeSide N F) :
    Shell N F → NativeOp F → Shell N F → Prop
  | told (s : Shell N F) (q : Request F) (n : N) (hbound : bound q.method = true)
      (h : side.receive q s.native n) : Call bound side s (.tell q) { s with native := n }
  | asked (s : Shell N F) (q : Query) (hbound : bound q.method = true) :
      Call bound side s (.ask q) { s with display := q.answer side s.native s.display }
  | failed (s : Shell N F) (op : NativeOp F) (hbound : bound op.method = false) :
      Call bound side s op (s.logNativeBindingFailureOnce op.method.tag op.message)

/-- Calls one after the other. -/
def calls (bound : NativeMethod → Bool) (side : NativeSide N F) : Lts (Shell N F) (NativeOp F) where
  init _ := True
  step := Call bound side

end Shell

/-! ## What happens on the main thread -/

/-- A `PointerInputChange`: its id and position, and what its three tests answer. -/
structure PointerInputChange (F : Type) where
  id : Int64
  x : F
  y : F
  changedToDown : Bool
  changedToUp : Bool
  positionChanged : Bool

/-- The body of the loop over `event.changes`. -/
def PointerInputChange.ops (change : PointerInputChange F) : List (NativeOp F) :=
  let pointerId := change.id.toInt32
  if change.changedToDown then [.tell (.touchDown pointerId change.x change.y)]
  else if change.changedToUp then [.tell (.touchUp pointerId change.x change.y)]
  else if change.positionChanged then [.tell (.touchMove pointerId change.x change.y)]
  else []

/-- `KeyEventType`. -/
inductive KeyEventType
  | unknown
  | keyDown
  | keyUp
deriving DecidableEq, Repr

/-- What `KonativeRootComposable` is told. -/
inductive ComposeEvent (F : Type)
  | sizeChanged (width height : Int32)
  | windowFocused (isWindowFocused : Bool)
  | key (keyCode : Int32) (type : KeyEventType)
  | pointer (changes : List (PointerInputChange F))

/-- What it asks of the native side then. -/
def ComposeEvent.ops : ComposeEvent F → List (NativeOp F)
  | sizeChanged width height => [.tell (.windowResized width height)]
  | windowFocused isWindowFocused => [.tell (.windowFocusChanged isWindowFocused)]
  | key keyCode .keyDown => [.tell (.keyEvent keyCode true)]
  | key keyCode .keyUp => [.tell (.keyEvent keyCode false)]
  | key _ .unknown => []
  | pointer changes => changes.flatMap PointerInputChange.ops ++ [.ask .touchCount]

/-- The seconds of a frame's delta.  There is none in the first frame, which makes no
difference: no nanoseconds are no seconds. -/
def deltaSeconds (o : FloatOps F) (deltaNanos : Int) : F :=
  if deltaNanos = 0 then o.ofInt 0 else o.div (o.ofInt deltaNanos) (o.ofInt 1000000000)

/-- The calls that a call of `EntryPoint` stands for: a frame is a tick and three queries. -/
def NativeCall.ops (o : FloatOps F) : NativeCall → List (NativeOp F)
  | .start => [.tell (.dispatchLifecycle AndroidLifecycleEvent.started.code)]
  | .resume => [.tell (.dispatchLifecycle AndroidLifecycleEvent.resumed.code)]
  | .pause => [.tell (.dispatchLifecycle AndroidLifecycleEvent.paused.code)]
  | .destroy => [.tell (.dispatchLifecycle AndroidLifecycleEvent.destroyed.code)]
  | .tick deltaNanos =>
      [.tell (.tick (deltaSeconds o deltaNanos)), .ask .tickCount, .ask .followerX, .ask .followerY]

namespace Shell

/-- What can happen. -/
inductive Event (F : Type)
  /-- An Activity's callback, or a frame. -/
  | activity (e : EntryPoint.Event)
  | compose (e : ComposeEvent F)
  /-- The native side's threads go on. -/
  | background

/-- One event.  There is something composed once an Activity has been created. -/
inductive Step (o : FloatOps F) (bound : NativeMethod → Bool) (side : NativeSide N F) :
    Shell N F → Event F → Shell N F → Prop
  | activity (s s' : Shell N F) (e : EntryPoint.Event) (ui : EntryPoint)
      (asked : List NativeCall) (hnext : EntryPoint.next true s.ui e = some ui)
      (hasked : ui.native = s.ui.native ++ asked)
      (hcalls : (calls bound side).Run { s with ui } (asked.flatMap (NativeCall.ops o)) s') :
      Step o bound side s (.activity e) s'
  | compose (s s' : Shell N F) (e : ComposeEvent F) (hcomposed : s.ui.nativeStarted = true)
      (hcalls : (calls bound side).Run s e.ops s') : Step o bound side s (.compose e) s'
  | background (s : Shell N F) (n : N) (h : side.background s.native n) :
      Step o bound side s .background { s with native := n }

/-- The process, from before any Activity. -/
def system (o : FloatOps F) (bound : NativeMethod → Bool) (side : NativeSide N F) (native : N) :
    Lts (Shell N F) (Event F) where
  init s := s = initial o native
  step := Step o bound side

/-! ## What Kotlin asks for -/

/-- What an event makes of the Activities, and the calls it makes. -/
def asks (o : FloatOps F) (ui : EntryPoint) : Event F → Option (EntryPoint × List (NativeOp F))
  | .activity e => (EntryPoint.next true ui e).map fun ui' ↦
      (ui', (ui'.native.drop ui.native.length).flatMap (NativeCall.ops o))
  | .compose e => if ui.nativeStarted then some (ui, e.ops) else none
  | .background => some (ui, [])

/-- The same of a history. -/
def attempted (o : FloatOps F) :
    EntryPoint → List (Event F) → Option (EntryPoint × List (NativeOp F))
  | ui, [] => some (ui, [])
  | ui, e :: w => (asks o ui e).bind fun x ↦
      (attempted o x.1 w).map fun y ↦ (y.1, x.2 ++ y.2)

variable {o : FloatOps F} {bound : NativeMethod → Bool} {side : NativeSide N F}
  {s s' : Shell N F} {e : Event F} {ui : EntryPoint} {w : List (Event F)}
  {op : NativeOp F} {ops : List (NativeOp F)} {n n₀ : N}

theorem attempted_snoc (h : attempted o ui w = some (s.ui, ops)) {ui' : EntryPoint}
    {ops' : List (NativeOp F)} (he : asks o s.ui e = some (ui', ops')) :
    attempted o ui (w ++ [e]) = some (ui', ops ++ ops') := by
  induction w generalizing ui ops with
  | nil =>
      obtain ⟨rfl, rfl⟩ := Prod.mk.inj (Option.some.inj h)
      rw [List.nil_append, attempted, he]
      simp [attempted]
  | cons e₁ w ih =>
      obtain ⟨⟨ui₁, ops₁⟩, h₁, h⟩ := Option.bind_eq_some_iff.mp h
      obtain ⟨⟨ui₂, ops₂⟩, h₂, h⟩ := Option.map_eq_some_iff.mp h
      obtain ⟨rfl, rfl⟩ := Prod.mk.inj h
      rw [List.cons_append, attempted, h₁, Option.bind_some, ih h₂, Option.map_some,
        List.append_assoc]

/-- A call leaves the Activities. -/
theorem Call.ui_eq (h : Call bound side s op s') : s'.ui = s.ui := by
  cases h with
  | told | asked => rfl
  | failed =>
      unfold logNativeBindingFailureOnce
      split <;> rfl

theorem ui_of_calls (h : (calls bound side).Run s ops s') : s'.ui = s.ui := by
  induction h with
  | nil s => rfl
  | cons hc _ ih => exact ih.trans hc.ui_eq

/-- What every event keeps of the Activities and the ticker, every run does. -/
theorem ui_invariant {I : EntryPoint → Prop}
    (hstep : ∀ {ui e ui'}, EntryPoint.next true ui e = some ui' → I ui → I ui')
    (h : (system o bound side n₀).Run s w s') (hs : I s.ui) : I s'.ui := by
  refine h.invariant (I := fun s ↦ I s.ui) (fun {s e s'} h hs ↦ ?_) hs
  cases h with
  | activity s' e ui asked hnext hasked hcalls =>
      rw [ui_of_calls hcalls]
      exact hstep hnext hs
  | compose s' e hcomposed hcalls => rwa [ui_of_calls hcalls]
  | background => exact hs

/-- What a step does: the calls that were asked for, or a step of the native side's own. -/
theorem Step.cases (h : Step o bound side s e s') : ∃ ops, asks o s.ui e = some (s'.ui, ops) ∧
    ((∃ ui, (calls bound side).Run { s with ui } ops s') ∨
      ops = [] ∧ ∃ n, side.background s.native n ∧ s' = { s with native := n }) := by
  cases h with
  | activity s' e ui asked hnext hasked hcalls =>
      have hui : s'.ui = ui := ui_of_calls hcalls
      refine ⟨asked.flatMap (NativeCall.ops o), ?_, .inl ⟨ui, hcalls⟩⟩
      rw [asks, hnext, Option.map_some, hasked, List.drop_left, hui]
  | compose s' e hcomposed hcalls =>
      refine ⟨e.ops, ?_, .inl ⟨s.ui, hcalls⟩⟩
      rw [asks, if_pos hcomposed, ui_of_calls hcalls]
  | background n hn => exact ⟨[], rfl, .inr ⟨rfl, n, hn, rfl⟩⟩

end Shell

/-! ## What a method that is not bound changes -/

/-- The native side by itself: it receives a request, or its threads take a step. -/
def NativeSide.lts (side : NativeSide N F) : Lts N (Option (Request F)) where
  init _ := True
  step n q n' := match q with
    | some q => side.receive q n n'
    | none => side.background n n'

/-- The request that reaches the native side. -/
def NativeOp.told (bound : NativeMethod → Bool) : NativeOp F → Option (Request F)
  | tell q => if bound q.method then some q else none
  | ask _ => none

/-- The calls that fail, and their tags. -/
def failures (bound : NativeMethod → Bool) (ops : List (NativeOp F)) :
    List (NativeOp F × String) :=
  (ops.filter fun op ↦ !bound op.method).map fun op ↦ (op, op.method.tag)

/-- Two displays show the same where the answer to a query is shown. -/
def Query.Same (d d' : Displays F) : Query → Prop
  | tickCount => d.tickCountDisplay = d'.tickCountDisplay
  | touchCount => d.touchCountDisplay = d'.touchCountDisplay
  | followerX => d.followerXDisplay = d'.followerXDisplay
  | followerY => d.followerYDisplay = d'.followerYDisplay

theorem Query.Same.refl (d : Displays F) (q : Query) : q.Same d d := by cases q <;> rfl

theorem Query.Same.symm {d d' : Displays F} {q : Query} (h : q.Same d d') : q.Same d' d := by
  cases q <;> exact Eq.symm h

theorem Query.Same.trans {d d' d'' : Displays F} {q : Query} (h : q.Same d d')
    (h' : q.Same d' d'') : q.Same d d'' := by
  cases q <;> exact Eq.trans h h'

/-- A request does not change the answer. -/
def NativeSide.Keeps (side : NativeSide N F) (q : Query) (r : Request F) : Prop :=
  ∀ n n' d, side.receive r n n' → q.Same (q.answer side n' d) (q.answer side n d)

/-- The answer to one query is not shown where that to another is. -/
theorem Query.Same.answer {d d' : Displays F} {q q' : Query} (h : q.Same d d') (hq : q' ≠ q)
    (side : NativeSide N F) (n : N) : q.Same (q'.answer side n d) d' := by
  cases q <;> cases q' <;> first | exact h | exact absurd rfl hq

theorem failures_concat (bound : NativeMethod → Bool) (ops : List (NativeOp F))
    (op : NativeOp F) :
    failures bound (ops ++ [op]) =
      failures bound ops ++ if bound op.method then [] else [(op, op.method.tag)] := by
  unfold failures
  rw [List.filter_append, List.map_append]
  cases h : bound op.method <;> simp [h]

namespace Shell

variable {o : FloatOps F} {bound : NativeMethod → Bool} {side : NativeSide N F}
  {s s' : Shell N F} {e : Event F} {ui : EntryPoint} {w : List (Event F)}
  {op : NativeOp F} {ops : List (NativeOp F)} {n n₀ : N}

/-- What is left of a history that has asked for these calls, when the methods of some
are not bound. -/
structure Degraded (o : FloatOps F) (bound : NativeMethod → Bool) (side : NativeSide N F)
    (n₀ : N) (ops : List (NativeOp F)) (s : Shell N F) : Prop where
  /-- Each tag of a call that failed, once. -/
  logged : s.loggedNativeBindingFailures =
    (Assoc.firsts [] (failures bound ops)).map Prod.snd
  /-- The message of the first call that failed under it. -/
  log : s.log = (Assoc.firsts [] (failures bound ops)).map fun x ↦ x.1.message
  /-- A display that cannot be asked for shows what it showed at first. -/
  display : ∀ q : Query, bound q.method = false → q.Same s.display (.initial o)
  /-- The native side received the other requests, in order. -/
  native : ∃ v, side.lts.Run n₀ v s.native ∧
    v.filterMap id = ops.filterMap (NativeOp.told bound)

theorem degraded_initial (o : FloatOps F) (bound : NativeMethod → Bool) (side : NativeSide N F)
    (n₀ : N) : Degraded o bound side n₀ [] (initial o n₀) :=
  ⟨rfl, rfl, fun q _ ↦ .refl _ q, [], .nil n₀, rfl⟩

/-- A failure is logged unless its tag has been. -/
theorem Degraded.failed (h : Degraded o bound side n₀ ops s) (hop : bound op.method = false) :
    Degraded o bound side n₀ (ops ++ [op])
      (s.logNativeBindingFailureOnce op.method.tag op.message) := by
  have hmem : op.method.tag ∈ s.loggedNativeBindingFailures ↔
      op.method.tag ∈ (failures bound ops).map Prod.snd := by
    rw [h.logged, Assoc.mem_map_firsts]
    exact and_iff_right (List.not_mem_nil)
  have hfirsts : Assoc.firsts [] (failures bound (ops ++ [op])) =
      Assoc.firsts [] (failures bound ops) ++
        if op.method.tag ∈ s.loggedNativeBindingFailures then [] else [(op, op.method.tag)] := by
    rw [failures_concat, hop, if_neg Bool.false_ne_true, Assoc.firsts_concat]
    congr 2
    rw [hmem, eq_iff_iff]
    exact or_iff_right List.not_mem_nil
  have htold : (ops ++ [op]).filterMap (NativeOp.told bound) =
      ops.filterMap (NativeOp.told bound) := by
    rw [List.filterMap_append]
    cases op with
    | tell q =>
        have hq : bound q.method = false := hop
        simp [NativeOp.told, hq]
    | ask q => simp [NativeOp.told]
  unfold logNativeBindingFailureOnce
  split
  · rename_i hlogged
    rw [if_pos hlogged, List.append_nil] at hfirsts
    refine ⟨?_, ?_, h.display, ?_⟩
    · rw [hfirsts, h.logged]
    · rw [hfirsts, h.log]
    · rw [htold]
      exact h.native
  · rename_i hlogged
    rw [if_neg hlogged] at hfirsts
    refine ⟨?_, ?_, h.display, ?_⟩
    · rw [hfirsts, List.map_append, ← h.logged]
      rfl
    · rw [hfirsts, List.map_append, ← h.log]
      rfl
    · rw [htold]
      exact h.native

/-- The step lemma: one more call. -/
theorem Degraded.call (h : Degraded o bound side n₀ ops s) (hc : Call bound side s op s') :
    Degraded o bound side n₀ (ops ++ [op]) s' := by
  have hbound (op : NativeOp F) (hop : bound op.method = true) :
      failures bound (ops ++ [op]) = failures bound ops := by
    rw [failures_concat, hop, if_pos rfl, List.append_nil]
  cases hc with
  | told q n hq hn =>
      refine ⟨?_, ?_, h.display, ?_⟩
      · rw [hbound (.tell q) hq, ← h.logged]
      · rw [hbound (.tell q) hq, ← h.log]
      · obtain ⟨v, hv, htold⟩ := h.native
        refine ⟨v ++ [some q], hv.snoc hn, ?_⟩
        rw [List.filterMap_append, List.filterMap_append, htold]
        simp [NativeOp.told, hq]
  | asked q hq =>
      refine ⟨?_, ?_, fun q' hq' ↦ ?_, ?_⟩
      · rw [hbound (.ask q) hq, ← h.logged]
      · rw [hbound (.ask q) hq, ← h.log]
      · refine (h.display q' hq').answer ?_ side s.native
        rintro rfl
        exact Bool.false_ne_true (hq'.symm.trans hq)
      · obtain ⟨v, hv, htold⟩ := h.native
        refine ⟨v, hv, ?_⟩
        rw [List.filterMap_append, htold]
        simp [NativeOp.told]
  | failed op hop => exact h.failed hop

/-- The run lemma for the calls of an event. -/
theorem Degraded.calls {ops' : List (NativeOp F)} (h : Degraded o bound side n₀ ops s)
    (hrun : (calls bound side).Run s ops' s') : Degraded o bound side n₀ (ops ++ ops') s' := by
  refine hrun.history (P := fun v t ↦ Degraded o bound side n₀ (ops ++ v) t) ?_ ?_
  · rw [List.append_nil]
    exact h
  · intro v t op t' _ ih hc
    rw [← List.append_assoc]
    exact ih.call hc

theorem Degraded.step (h : Degraded o bound side n₀ ops s) (hs : Step o bound side s e s') :
    ∃ ops', asks o s.ui e = some (s'.ui, ops') ∧ Degraded o bound side n₀ (ops ++ ops') s' := by
  obtain ⟨ops', hasks, ⟨ui, hcalls⟩ | ⟨rfl, n, hn, rfl⟩⟩ := hs.cases
  · have hui : Degraded o bound side n₀ ops { s with ui } := ⟨h.logged, h.log, h.display, h.native⟩
    exact ⟨ops', hasks, hui.calls hcalls⟩
  · obtain ⟨v, hv, htold⟩ := h.native
    have hv' : (v ++ [none]).filterMap id = ops.filterMap (NativeOp.told bound) := by
      rw [List.filterMap_append, htold]
      exact List.append_nil _
    refine ⟨[], hasks, ?_⟩
    rw [List.append_nil]
    exact ⟨h.logged, h.log, h.display, v ++ [none], hv.snoc hn, hv'⟩

theorem degraded_of_run (h : (system o bound side n₀).Run (initial o n₀) w s) :
    ∃ ops, attempted o .initial w = some (s.ui, ops) ∧ Degraded o bound side n₀ ops s := by
  refine h.history (P := fun w s ↦ ∃ ops, attempted o .initial w = some (s.ui, ops) ∧
    Degraded o bound side n₀ ops s) ⟨[], rfl, degraded_initial o bound side n₀⟩ ?_
  rintro w t e t' - ⟨ops, hops, hd⟩ hs
  obtain ⟨ops', hasks, hd⟩ := hd.step hs
  exact ⟨ops ++ ops', attempted_snoc hops hasks, hd⟩

/-! ## Nothing that is missing is waited for -/

/-- Calls are made, whichever methods are bound. -/
theorem exists_calls (bound : NativeMethod → Bool) (hreceive : ∀ q n, ∃ n', side.receive q n n')
    (ops : List (NativeOp F)) (s : Shell N F) : ∃ s', (calls bound side).Run s ops s' := by
  induction ops generalizing s with
  | nil => exact ⟨s, .nil s⟩
  | cons op ops ih =>
      have hcall : ∃ t, Call bound side s op t := by
        cases hop : bound op.method with
        | false => exact ⟨_, .failed s op hop⟩
        | true =>
            cases op with
            | tell q =>
                obtain ⟨n, hn⟩ := hreceive q s.native
                exact ⟨_, .told s q n hop hn⟩
            | ask q => exact ⟨_, .asked s q hop⟩
      obtain ⟨t, ht⟩ := hcall
      obtain ⟨s', hs'⟩ := ih t
      exact ⟨s', .cons ht hs'⟩

/-- So is every event that Kotlin takes. -/
theorem exists_step (hreceive : ∀ q n, ∃ n', side.receive q n n')
    (hbackground : ∀ n, ∃ n', side.background n n') {x : EntryPoint × List (NativeOp F)}
    (h : asks o s.ui e = some x) : ∃ s', Step o bound side s e s' ∧ s'.ui = x.1 := by
  cases e with
  | activity e =>
      obtain ⟨ui, hnext, rfl⟩ := Option.map_eq_some_iff.mp h
      obtain ⟨asked, hasked⟩ := EntryPoint.native_extends hnext
      obtain ⟨s', hs'⟩ := exists_calls bound hreceive
        (asked.flatMap (NativeCall.ops o)) { s with ui }
      exact ⟨s', .activity s s' e ui asked hnext hasked.symm hs', ui_of_calls hs'⟩
  | compose e =>
      rw [asks, Option.ite_none_right_eq_some] at h
      obtain ⟨hcomposed, h⟩ := h
      obtain rfl := Option.some.inj h
      obtain ⟨s', hs'⟩ := exists_calls bound hreceive e.ops s
      exact ⟨s', .compose s s' e hcomposed hs', ui_of_calls hs'⟩
  | background =>
      obtain rfl := Option.some.inj h
      obtain ⟨n, hn⟩ := hbackground s.native
      exact ⟨_, .background s n hn, rfl⟩

theorem exists_run (hreceive : ∀ q n, ∃ n', side.receive q n n')
    (hbackground : ∀ n, ∃ n', side.background n n') {x : EntryPoint × List (NativeOp F)}
    (h : attempted o s.ui w = some x) : ∃ s', (system o bound side n₀).Run s w s' := by
  induction w generalizing s x with
  | nil => exact ⟨s, .nil s⟩
  | cons e w ih =>
      obtain ⟨x₁, h₁, h⟩ := Option.bind_eq_some_iff.mp h
      obtain ⟨y, hy, -⟩ := Option.map_eq_some_iff.mp h
      obtain ⟨t, ht, hui⟩ := exists_step hreceive hbackground h₁
      obtain ⟨s', hs'⟩ := ih (s := t) (hui ▸ hy)
      exact ⟨s', .cons ht hs'⟩

/-- Whichever native methods are bound: the Activities, the ticker and the calls asked for
are those of the history alone, each wrapper that fails logs its first message and no
other, a display that cannot be asked for stays as it was, and the native side receives
the other requests in order.  And every history goes on. -/
theorem degrades (o : FloatOps F) (bound : NativeMethod → Bool) (side : NativeSide N F) (n₀ : N)
    (hreceive : ∀ q n, ∃ n', side.receive q n n')
    (hbackground : ∀ n, ∃ n', side.background n n') (w : List (Event F)) :
    (∀ s, (system o bound side n₀).Run (initial o n₀) w s → ∃ ops,
      attempted o .initial w = some (s.ui, ops) ∧ Degraded o bound side n₀ ops s ∧
        s.loggedNativeBindingFailures.Nodup) ∧
      ∀ ui ops, attempted o .initial w = some (ui, ops) →
        ∃ s, (system o bound side n₀).Run (initial o n₀) w s ∧ s.ui = ui := by
  constructor
  · intro s h
    obtain ⟨ops, hops, hd⟩ := degraded_of_run h
    refine ⟨ops, hops, hd, ?_⟩
    rw [hd.logged]
    exact Assoc.nodup_firsts
  · intro ui ops hops
    obtain ⟨s, h⟩ : ∃ s, (system o bound side n₀).Run (initial o n₀) w s :=
      exists_run hreceive hbackground hops
    obtain ⟨ops', hops', -⟩ := degraded_of_run h
    exact ⟨s, h, congrArg Prod.fst (Option.some.inj (hops'.symm.trans hops))⟩

/-- A native side that counts the requests it receives. -/
def counting : NativeSide Nat UInt32 where
  receive _ n n' := n' = n + 1
  background n n' := n' = n
  tickCount n := Int64.ofNat n
  touchCount n := Int64.ofNat n
  followerX n := UInt32.ofNat n
  followerY n := UInt32.ofNat n

/-- A launch and two frames. -/
def twoFrames : List (Event UInt32) :=
  [.activity (.callback 0 .created), .activity (.callback 0 .started),
    .activity (.callback 0 .resumed), .activity (.vsync 16), .activity (.vsync 33)]

/-- Two frames without `nativeTick`: one line, and the queries are made. -/
theorem degrades_without_ticks : ∃ s,
    (system .whole (· ≠ .nativeTick) counting 0).Run (initial .whole 0) twoFrames s ∧
    s.loggedNativeBindingFailures = ["dispatchTickToNative"] := by
  have hdegrades := degrades .whole (· ≠ .nativeTick) counting 0 (fun _ n ↦ ⟨n + 1, rfl⟩)
    (fun n ↦ ⟨n, rfl⟩) twoFrames
  obtain ⟨⟨ui, ops⟩, hops⟩ : ∃ x, attempted .whole .initial twoFrames = some x := ⟨_, rfl⟩
  obtain ⟨s, hrun, -⟩ := hdegrades.2 ui ops hops
  obtain ⟨ops', hops', hd, -⟩ := hdegrades.1 s hrun
  have htags : (attempted .whole .initial twoFrames).map
      (fun x ↦ (Assoc.firsts [] (failures (· ≠ .nativeTick) x.2)).map Prod.snd) =
      some ["dispatchTickToNative"] := rfl
  rw [hops'] at htags
  exact ⟨s, hrun, hd.logged.trans (Option.some.inj htags)⟩

/-! ## What is on display

A display shows the answer to its query as long as every request that may change the
answer is followed by the question. -/

/-- The display of a query shows what the native side would answer. -/
def Shown (side : NativeSide N F) (q : Query) (s : Shell N F) : Prop :=
  q.Same s.display (q.answer side s.native s.display)

/-- The question comes after every request that may change the answer. -/
def AskedAfter (side : NativeSide N F) (q : Query) (ops : List (NativeOp F)) : Prop :=
  ∀ ops₁ r ops₂, ops = ops₁ ++ .tell r :: ops₂ → ¬ side.Keeps q r → .ask q ∈ ops₂

variable {q : Query}

theorem Shown.of_native (h : s.Shown side q)
    (hn : ∀ d, q.Same (q.answer side n d) (q.answer side s.native d)) :
    ({ s with native := n } : Shell N F).Shown side q :=
  Query.Same.trans h (Query.Same.symm (hn s.display))

theorem shown_of_asked (h : Call bound side s (.ask q) s') (hq : bound q.method = true) :
    s'.Shown side q := by
  cases h with
  | asked => cases q <;> rfl
  | failed _ hop => exact absurd (hq.symm.trans hop) (by decide)

/-- A call that is not a request that may change the answer. -/
theorem Shown.call (h : s.Shown side q) (hc : Call bound side s op s')
    (hop : ∀ r, op = .tell r → side.Keeps q r) : s'.Shown side q := by
  cases hc with
  | told r n _ hn => exact h.of_native fun d ↦ hop r rfl s.native n d hn
  | asked q' _ =>
      by_cases hq : q' = q
      · subst hq
        cases q' <;> rfl
      · cases q <;> cases q' <;> first | exact h | exact absurd rfl hq
  | failed =>
      unfold logNativeBindingFailureOnce
      split <;> exact h

theorem AskedAfter.tail (h : AskedAfter side q (op :: ops)) : AskedAfter side q ops :=
  fun ops₁ r ops₂ hops ↦ h (op :: ops₁) r ops₂ (congrArg (op :: ·) hops)

theorem askedAfter_nil : AskedAfter side q [] := by
  intro ops₁ r ops₂ h
  cases ops₁ <;> cases h

theorem AskedAfter.cons (h : AskedAfter side q ops)
    (hop : ∀ r, op = .tell r → side.Keeps q r ∨ .ask q ∈ ops) : AskedAfter side q (op :: ops) := by
  intro ops₁ r ops₂ hops hr
  cases ops₁ with
  | nil =>
      obtain ⟨rfl, rfl⟩ := List.cons.inj hops
      exact (hop r rfl).resolve_left hr
  | cons op₁ ops₁ => exact h ops₁ r ops₂ (List.cons.inj hops).2 hr

theorem AskedAfter.append {ops' : List (NativeOp F)} (h : AskedAfter side q ops)
    (h' : AskedAfter side q ops') : AskedAfter side q (ops ++ ops') := by
  induction ops with
  | nil => exact h'
  | cons op ops ih =>
      refine (ih h.tail).cons fun r hr ↦ ?_
      by_cases hk : side.Keeps q r
      · exact .inl hk
      · exact .inr (List.mem_append_left _ (h [] r ops (congrArg (· :: ops) hr) hk))

theorem askedAfter_flatMap {α : Type} {l : List α} {f : α → List (NativeOp F)}
    (h : ∀ a ∈ l, AskedAfter side q (f a)) : AskedAfter side q (l.flatMap f) := by
  induction l with
  | nil => exact askedAfter_nil
  | cons a l ih =>
      rw [List.flatMap_cons]
      exact (h a List.mem_cons_self).append (ih fun b hb ↦ h b (List.mem_cons_of_mem a hb))

theorem askedAfter_of_keeps (h : ∀ r, .tell r ∈ ops → side.Keeps q r) : AskedAfter side q ops := by
  intro ops₁ r ops₂ hops hr
  exact absurd (h r (hops ▸ List.mem_append_right _ List.mem_cons_self)) hr

/-- Whatever comes before the question. -/
theorem askedAfter_concat (ops : List (NativeOp F)) : AskedAfter side q (ops ++ [.ask q]) := by
  induction ops with
  | nil => exact askedAfter_nil.cons fun _ h ↦ by cases h
  | cons op ops ih => exact ih.cons fun _ _ ↦ .inr (by simp)

/-- After calls that ask in time the display shows the answer, if it did before or they
ask at all. -/
theorem shown_of_calls (h : (calls bound side).Run s ops s') (hq : bound q.method = true)
    (hops : AskedAfter side q ops) (hs : s.Shown side q ∨ .ask q ∈ ops) : s'.Shown side q := by
  induction h with
  | nil s => exact hs.resolve_right List.not_mem_nil
  | @cons s t _ op ops hc _ ih =>
      apply ih hops.tail
      by_cases hmem : .ask q ∈ ops
      · exact .inr hmem
      · left
        rcases hs with hs | hs
        · refine hs.call hc fun r hr ↦ Classical.byContradiction fun hk ↦ hmem ?_
          exact hops [] r ops (congrArg (· :: ops) hr) hk
        · obtain rfl := (List.mem_cons.mp hs).resolve_right hmem
          exact shown_of_asked hc hq

end Shell

/-! ## Native sides that show the same -/

variable {M : Type}

/-- Through `φ`, what one native side does another can do, and they answer the same. -/
structure NativeSide.Refines (side : NativeSide N F) (abs : NativeSide M F) (φ : N → M) :
    Prop where
  receive : ∀ {q n n'}, side.receive q n n' → abs.receive q (φ n) (φ n')
  background : ∀ {n n'}, side.background n n' → abs.background (φ n) (φ n')
  answer : ∀ (q : Query) (n : N) (d : Displays F), q.answer abs (φ n) d = q.answer side n d

namespace Shell

variable {o : FloatOps F} {bound : NativeMethod → Bool} {side : NativeSide N F}
  {abs : NativeSide M F} {φ : N → M} {s s' : Shell N F} {e : Event F} {op : NativeOp F}
  {ops : List (NativeOp F)} {w : List (Event F)} {n₀ : N}

/-- The same shell in front of another native side. -/
def map (φ : N → M) (s : Shell N F) : Shell M F where
  ui := s.ui
  display := s.display
  loggedNativeBindingFailures := s.loggedNativeBindingFailures
  log := s.log
  native := φ s.native

theorem Call.map (hφ : side.Refines abs φ) (h : Call bound side s op s') :
    Call bound abs (s.map φ) op (s'.map φ) := by
  cases h with
  | told q n hq hn => exact .told (s.map φ) q (φ n) hq (hφ.receive hn)
  | asked q hq =>
      have hasked : Call bound abs (s.map φ) (.ask q) _ := .asked (s.map φ) q hq
      rw [show (s.map φ).native = φ s.native from rfl, hφ.answer] at hasked
      exact hasked
  | failed op hop =>
      have hfailed : Call bound abs (s.map φ) op _ := .failed (s.map φ) op hop
      have hlog : (s.map φ).logNativeBindingFailureOnce op.method.tag op.message =
          (s.logNativeBindingFailureOnce op.method.tag op.message).map φ := by
        unfold logNativeBindingFailureOnce
        split
        · rename_i htag
          exact (if_pos htag).symm ▸ rfl
        · rename_i htag
          exact (if_neg htag).symm ▸ rfl
      exact hlog ▸ hfailed

theorem calls_map (hφ : side.Refines abs φ) (h : (calls bound side).Run s ops s') :
    (calls bound abs).Run (s.map φ) ops (s'.map φ) := by
  induction h with
  | nil s => exact .nil (s.map φ)
  | cons hc _ ih => exact .cons (hc.map hφ) ih

theorem Step.map (hφ : side.Refines abs φ) (h : Step o bound side s e s') :
    Step o bound abs (s.map φ) e (s'.map φ) := by
  cases h with
  | activity s' e ui asked hnext hasked hcalls =>
      exact .activity (s.map φ) (s'.map φ) e ui asked hnext hasked (calls_map hφ hcalls)
  | compose s' e hcomposed hcalls =>
      exact .compose (s.map φ) (s'.map φ) e hcomposed (calls_map hφ hcalls)
  | background n hn => exact .background (s.map φ) (φ n) (hφ.background hn)

/-- A run in front of the one is a run in front of the other. -/
theorem run_map (hφ : side.Refines abs φ) (h : (system o bound side n₀).Run s w s') :
    (system o bound abs (φ n₀)).Run (s.map φ) w (s'.map φ) := by
  induction h with
  | nil s => exact .nil (s.map φ)
  | cons hs _ ih => exact .cons (Step.map hφ hs) ih

end Shell

end Konative.Android
