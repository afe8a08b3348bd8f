import Konative.Android.EntryPoint
import Mathlib.Algebra.Order.Group.Int
import Mathlib.Algebra.Ring.Int.Defs
import Mathlib.Algebra.BigOperators.Group.List.Basic

/-!
# One native tick for each frame

`FrameTicker` on its own: `start()` and `stop()` are called in any order and any
number of times between two vsyncs, and a vsync runs whatever callbacks the
Choreographer holds.  It holds one while the ticker is active and none otherwise
(`Scheduled`), which is what `removeFrameCallback` in `stop()` is there for: without
it a `stop()` and a `start()` within one frame would leave two.

`EntryPoint.onCallback_ticker` and `EntryPoint.vsync_ticker` say that the process of
all the Activities drives this ticker and no other.
-/

namespace Konative.Android

namespace FrameTicker

/-- `FrameTicker.doFrame(frameTimeNanos)`, and the deltas it ticks the native side with. -/
def doFrame (frameTimeNanos : Int) (t : FrameTicker) : FrameTicker × List Int :=
  if t.active then
    (⟨true, frameTimeNanos, t.pending + 1⟩,
      [if t.lastFrameTimeNanos = 0 then 0 else frameTimeNanos - t.lastFrameTimeNanos])
  else (t, [])

/-- So many callbacks run at one frame time. -/
def frames (frameTimeNanos : Int) : Nat → FrameTicker → FrameTicker × List Int
  | 0, t => (t, [])
  | n + 1, t =>
      let x := t.doFrame frameTimeNanos
      let y := frames frameTimeNanos n x.1
      (y.1, x.2 ++ y.2)

/-- A vsync: the Choreographer takes the callbacks it holds and runs each. -/
def vsync (frameTimeNanos : Int) (t : FrameTicker) : FrameTicker × List Int :=
  frames frameTimeNanos t.pending { t with pending := 0 }

/-- What can happen to the ticker. -/
inductive Event
  | start
  | stop
  | vsync (frameTimeNanos : Int)
deriving DecidableEq, Repr

/-- The ticker, the time of the last vsync, and the ticks so far. -/
structure Driven where
  ticker : FrameTicker
  clock : Int
  ticks : List Int

/-- The ticker before anything has happened. -/
def Driven.initial : Driven := ⟨⟨false, 0, 0⟩, 0, []⟩

/-- One event.  Vsyncs have positive, increasing times. -/
inductive Driven.Step : Driven → Event → Driven → Prop
  | start (s : Driven) : Step s .start { s with ticker := s.ticker.start }
  | stop (s : Driven) : Step s .stop { s with ticker := s.ticker.stop }
  | vsync (s : Driven) (time : Int) (h : s.clock < time) :
      Step s (.vsync time)
        ⟨(s.ticker.vsync time).1, time, s.ticks ++ (s.ticker.vsync time).2⟩

/-- The ticker under any sequence of events. -/
def system : Lts Driven Event where
  init s := s = .initial
  step := Driven.Step

/-! ## One callback while active -/

/-- The Choreographer holds one callback if the ticker is active, and none otherwise. -/
def Scheduled (t : FrameTicker) : Prop := t.pending = if t.active then 1 else 0

theorem Scheduled.start {t : FrameTicker} (ht : t.Scheduled) : t.start.Scheduled := by
  unfold Scheduled at ht
  unfold FrameTicker.start
  split
  · exact ht
  · rename_i ha
    rw [if_neg ha] at ht
    rw [Scheduled, ht]
    rfl

theorem scheduled_stop (t : FrameTicker) : t.stop.Scheduled := rfl

/-- A vsync of an active ticker ticks once, and schedules the next frame. -/
theorem Scheduled.vsync_active {t : FrameTicker} (ht : t.Scheduled) (ha : t.active = true)
    (time : Int) : t.vsync time = (⟨true, time, 1⟩,
      [if t.lastFrameTimeNanos = 0 then 0 else time - t.lastFrameTimeNanos]) := by
  rw [Scheduled, if_pos ha] at ht
  rw [vsync, ht]
  simp [frames, doFrame, ha]

/-- A vsync of a ticker that is not active does nothing. -/
theorem Scheduled.vsync_inactive {t : FrameTicker} (ht : t.Scheduled) (ha : t.active = false)
    (time : Int) : t.vsync time = (t, []) := by
  rw [Scheduled, if_neg (Bool.eq_false_iff.mp ha)] at ht
  obtain ⟨active, last, n⟩ := t
  obtain rfl : n = 0 := ht
  rfl

theorem Scheduled.vsync {t : FrameTicker} (ht : t.Scheduled) (time : Int) :
    (t.vsync time).1.Scheduled := by
  cases ha : t.active with
  | true => rw [ht.vsync_active ha]; rfl
  | false => rw [ht.vsync_inactive ha]; exact ht

/-- The step lemma. -/
theorem Driven.Step.scheduled {s s' : Driven} {e : Event} (h : s.Step e s')
    (hs : s.ticker.Scheduled) : s'.ticker.Scheduled := by
  cases h with
  | start => exact hs.start
  | stop => exact scheduled_stop _
  | vsync time _ => exact hs.vsync time

theorem scheduled_of_reachable {s : Driven} (h : system.Reachable s) : s.ticker.Scheduled :=
  h.invariant (I := fun s ↦ s.ticker.Scheduled) (fun h ↦ h ▸ rfl) Driven.Step.scheduled

/-! ## A stretch of frames

From a `start()` that activates the ticker to the next `stop()`. -/

/-- The differences between one time and the next. -/
def differences : Int → List Int → List Int
  | _, [] => []
  | a, b :: times => (b - a) :: differences b times

/-- The deltas of a stretch with these frame times: the first frame has no previous one. -/
def deltas : List Int → List Int
  | [] => []
  | a :: times => 0 :: differences a times

theorem length_differences (a : Int) (times : List Int) :
    (differences a times).length = times.length := by
  induction times generalizing a with
  | nil => rfl
  | cons b times ih => rw [differences, List.length_cons, ih, List.length_cons]

theorem differences_append (a : Int) (times : List Int) (b : Int) :
    differences a (times ++ [b]) = differences a times ++ [b - times.getLastD a] := by
  induction times generalizing a with
  | nil => rfl
  | cons c times ih =>
      rw [List.cons_append, differences, ih, differences, List.getLastD_cons, List.cons_append]

/-- The differences telescope. -/
theorem sum_differences (a : Int) (times : List Int) :
    (differences a times).sum = times.getLastD a - a := by
  induction times generalizing a with
  | nil => exact (Int.sub_self a).symm
  | cons b times ih =>
      rw [differences, List.sum_cons, ih, List.getLastD_cons]
      omega

theorem differences_nonneg {a : Int} {times : List Int} (h : (a :: times).Pairwise (· < ·)) :
    ∀ d ∈ differences a times, 0 ≤ d := by
  induction times generalizing a with
  | nil => exact nofun
  | cons b times ih =>
      have hab : a < b := List.rel_of_pairwise_cons h List.mem_cons_self
      intro d hd
      rcases List.mem_cons.mp hd with rfl | hd
      · omega
      · exact ih h.of_cons d hd

/-- One more frame: its delta is the time since the last one, which being positive is
not taken for none. -/
theorem deltas_append {times : List Int} (h : ∀ time ∈ times, 0 < time) (b : Int) :
    deltas (times ++ [b]) = deltas times ++
      [if times.getLastD 0 = 0 then 0 else b - times.getLastD 0] := by
  cases times with
  | nil => rfl
  | cons a times =>
      have hpos : 0 < times.getLastD a := h _ List.getLastD_mem_cons
      rw [List.getLastD_cons, if_neg (by omega), List.cons_append, deltas, differences_append]
      rfl

/-- The frame times of a sequence of events. -/
def frameTimes (w : List Event) : List Int :=
  w.filterMap fun e ↦ match e with
    | .vsync time => some time
    | .start | .stop => none

theorem frameTimes_append (w w' : List Event) :
    frameTimes (w ++ w') = frameTimes w ++ frameTimes w' := List.filterMap_append

/-- `w` has passed since a `start()` that activated the ticker, with no `stop()`. -/
private structure Since (before : List Int) (w : List Event) (s : Driven) : Prop where
  active : s.ticker.active = true
  scheduled : s.ticker.Scheduled
  last : s.ticker.lastFrameTimeNanos = (frameTimes w).getLastD 0
  ticks : s.ticks = before ++ deltas (frameTimes w)
  sorted : (frameTimes w).Pairwise (· < ·)
  bounds : ∀ time ∈ frameTimes w, 0 < time ∧ time ≤ s.clock
  clock : 0 ≤ s.clock

/-- A frame of the stretch ticks with the time since the last one. -/
private theorem Since.vsync {before : List Int} {w : List Event} {s : Driven}
    (h : Since before w s) {time : Int} (ht : s.clock < time) :
    Since before (w ++ [.vsync time])
      ⟨(s.ticker.vsync time).1, time, s.ticks ++ (s.ticker.vsync time).2⟩ := by
  have hframe := h.scheduled.vsync_active h.active time
  have htimes : frameTimes (w ++ [.vsync time]) = frameTimes w ++ [time] := frameTimes_append ..
  have hbounds : ∀ t ∈ frameTimes w, 0 < t ∧ t ≤ time := fun t hm ↦
    ⟨(h.bounds t hm).1, Int.le_of_lt (Int.lt_of_le_of_lt (h.bounds t hm).2 ht)⟩
  refine ⟨?_, h.scheduled.vsync time, ?_, ?_, ?_, ?_, ?_⟩
  · rw [hframe]
  · rw [hframe, htimes, List.getLastD_concat]
  · rw [hframe, htimes, h.ticks, h.last, List.append_assoc]
    rw [deltas_append fun t hm ↦ (h.bounds t hm).1]
  · rw [htimes]
    refine List.pairwise_append.mpr ⟨h.sorted, List.pairwise_singleton _ _, ?_⟩
    intro a ha b hb
    obtain rfl := List.mem_singleton.mp hb
    exact Int.lt_of_le_of_lt (h.bounds a ha).2 ht
  · rw [htimes]
    intro t hm
    rcases List.mem_append.mp hm with hm | hm
    · exact hbounds t hm
    · obtain rfl := List.mem_singleton.mp hm
      exact ⟨Int.lt_of_le_of_lt h.clock ht, Int.le_refl _⟩
  · exact Int.le_of_lt (Int.lt_of_le_of_lt h.clock ht)

private theorem Since.step {before : List Int} {w : List Event} {s s' : Driven} {e : Event}
    (h : Since before w s) (hstep : s.Step e s') (he : e ≠ .stop) :
    Since before (w ++ [e]) s' := by
  cases hstep with
  | start =>
      have hself : ({ s with ticker := s.ticker.start } : Driven) = s := by
        rw [show s.ticker.start = s.ticker from if_pos h.active]
      have htimes : frameTimes (w ++ [.start]) = frameTimes w := by
        rw [frameTimes_append]
        exact List.append_nil _
      rw [hself]
      exact ⟨h.active, h.scheduled, htimes ▸ h.last, htimes ▸ h.ticks, htimes ▸ h.sorted,
        htimes ▸ h.bounds, h.clock⟩
  | stop => exact absurd rfl he
  | vsync time ht => exact h.vsync ht

/-- What the ticks of a stretch with these frame times should be. -/
structure Ticked (times ds : List Int) : Prop where
  /-- One for each vsync. -/
  length : ds.length = times.length
  first : ds.head? = times.head?.map fun _ ↦ 0
  nonneg : ∀ d ∈ ds, 0 ≤ d
  sum : ds.sum = times.getLastD 0 - times.headD 0

theorem ticked_deltas {times : List Int} (h : times.Pairwise (· < ·)) :
    Ticked times (deltas times) := by
  cases times with
  | nil => exact ⟨rfl, rfl, nofun, rfl⟩
  | cons a times =>
      refine ⟨?_, rfl, ?_, ?_⟩
      · rw [deltas, List.length_cons, length_differences, List.length_cons]
      · exact List.forall_mem_cons.mpr ⟨Int.le_refl 0, differences_nonneg h⟩
      · rw [deltas, List.sum_cons, sum_differences, List.getLastD_cons]
        exact Int.zero_add _

theorem clock_nonneg {s : Driven} (h : system.Reachable s) : 0 ≤ s.clock := by
  refine h.invariant (I := fun s ↦ 0 ≤ s.clock) (fun h ↦ h ▸ Int.le_refl 0) ?_
  intro s e s' hstep hs
  cases hstep with
  | start | stop => exact hs
  | vsync time ht => exact Int.le_of_lt (Int.lt_of_le_of_lt hs ht)

/-- The ticks since a `start()` that activated the ticker. -/
theorem ticked_since_start {s s' : Driven} {w : List Event} (hs : system.Reachable s)
    (ha : s.ticker.active = false) (hr : system.Run s (.start :: w) s') (hw : .stop ∉ w) :
    ∃ ds, s'.ticks = s.ticks ++ ds ∧ Ticked (frameTimes w) ds := by
  cases hr with
  | cons hstart hr =>
      cases hstart
      have hstart : s.ticker.start = ⟨true, 0, s.ticker.pending + 1⟩ :=
        if_neg (Bool.eq_false_iff.mp ha)
      have hsince : .stop ∉ w → Since s.ticks w s' := by
        refine hr.history (P := fun w t ↦ .stop ∉ w → Since s.ticks w t) ?_ ?_
        · intro _
          exact ⟨hstart ▸ rfl, (scheduled_of_reachable hs).start, hstart ▸ rfl,
            (List.append_nil _).symm, .nil, nofun, (clock_nonneg hs : 0 ≤ s.clock)⟩
        · intro v t e t' _ ih hstep hv
          rw [List.mem_append, not_or] at hv
          exact (ih hv.1).step hstep fun he ↦ hv.2 (by simp [he])
      exact ⟨_, (hsince hw).ticks, ticked_deltas (hsince hw).sorted⟩

/-- In every state between events the Choreographer holds one callback if the ticker is
active and none otherwise, so a vsync ticks once or not at all; and the ticks of a
stretch start with 0, never go back, and sum to the time between its first and its
last frame. -/
theorem one_tick_per_frame {w : List Event} {s : Driven} (h : system.Run .initial w s) :
    s.ticker.pending = (if s.ticker.active then 1 else 0) ∧
      (∀ time s', s.Step (.vsync time) s' →
        s'.ticks.length = s.ticks.length + if s.ticker.active then 1 else 0) ∧
      ∀ before rest t, w = before ++ .start :: rest → system.Run .initial before t →
        system.Run t (.start :: rest) s → t.ticker.active = false → .stop ∉ rest →
        ∃ ds, s.ticks = t.ticks ++ ds ∧ Ticked (frameTimes rest) ds := by
  have hs : s.ticker.Scheduled := scheduled_of_reachable ⟨_, w, rfl, h⟩
  refine ⟨hs, ?_, ?_⟩
  · intro time s' hstep
    cases hstep
    cases ha : s.ticker.active with
    | true => simp [hs.vsync_active ha]
    | false => simp [hs.vsync_inactive ha]
  · intro before rest t _ hb hr ha hstop
    exact ticked_since_start ⟨_, before, rfl, hb⟩ ha hr hstop

/-- A `stop()` and a `start()` within one frame, between two vsyncs. -/
theorem one_tick_per_frame_restarted : ∃ s, system.Run .initial
    [.start, .vsync 16, .stop, .start, .vsync 33, .vsync 50] s ∧ s.ticks = [0, 0, 17] ∧
    s.ticker.pending = 1 := by
  have h : system.Run .initial [.start, .vsync 16, .stop, .start, .vsync 33, .vsync 50] _ :=
    .cons (.start _) <| .cons (.vsync _ 16 (by decide)) <| .cons (.stop _) <|
      .cons (.start _) <| .cons (.vsync _ 33 (by decide)) <| .single (.vsync _ 50 (by decide))
  exact ⟨_, h, rfl, (one_tick_per_frame h).1⟩

end FrameTicker

namespace EntryPoint

variable {bound : Bool} {s : EntryPoint}

/-! ## The ticker of the process -/

/-- A callback starts the ticker, stops it, or leaves it. -/
theorem onCallback_ticker (bound : Bool) (a : Nat) (c : Callback) (s : EntryPoint) :
    (onCallback bound a c s).ticker =
      match c with
      | .resumed => s.ticker.start
      | .paused => s.ticker.stop
      | .created | .started | .stopped | .saveInstanceState | .destroyed => s.ticker := by
  cases c <;> simp [onCallback, onActivityCreated, onActivityResumed, onActivityPaused,
    onActivityDestroyed]

/-- A frame is the ticker's, and its ticks reach the native side if it is bound. -/
theorem doFrame_ticker (bound : Bool) (t : Int) (s : EntryPoint) :
    (doFrame bound t s).ticker = (s.ticker.doFrame t).1 ∧
      (doFrame bound t s).native =
        s.native ++ if bound then (s.ticker.doFrame t).2.map .tick else [] := by
  unfold doFrame FrameTicker.doFrame
  split
  · rename_i ha
    simp [ha]
  · simp

/-- So is a vsync. -/
theorem vsync_ticker (bound : Bool) (t : Int) (s : EntryPoint) :
    (vsync bound t s).ticker = (s.ticker.vsync t).1 ∧
      (vsync bound t s).native =
        s.native ++ if bound then (s.ticker.vsync t).2.map .tick else [] := by
  have hframes : ∀ n (s : EntryPoint), ((doFrame bound t)^[n] s).ticker = (s.ticker.frames t n).1 ∧
      ((doFrame bound t)^[n] s).native =
        s.native ++ if bound then (s.ticker.frames t n).2.map .tick else [] := by
    intro n
    induction n with
    | zero => simp [FrameTicker.frames]
    | succ n ih =>
        intro s
        obtain ⟨ht, hn⟩ := doFrame_ticker bound t s
        obtain ⟨ht', hn'⟩ := ih (doFrame bound t s)
        rw [Function.iterate_succ_apply, ht', hn', hn, ht]
        refine ⟨rfl, ?_⟩
        cases bound <;> simp [FrameTicker.frames]
  exact hframes s.ticker.pending _

/-- No event leaves the Choreographer with a callback too many. -/
theorem scheduled_next {e : Event} {s' : EntryPoint} (h : next true s e = some s')
    (hs : s.ticker.Scheduled) : s'.ticker.Scheduled := by
  cases e with
  | vsync t =>
      obtain rfl := Option.some.inj h
      rw [(vsync_ticker true t s).1]
      exact hs.vsync t
  | callback a c =>
      obtain ⟨p, -, rfl⟩ := Option.map_eq_some_iff.mp h
      rw [onCallback_ticker]
      cases c with
      | resumed => exact hs.start
      | paused => exact FrameTicker.scheduled_stop _
      | created | started | stopped | saveInstanceState | destroyed => exact hs

end EntryPoint

end Konative.Android
