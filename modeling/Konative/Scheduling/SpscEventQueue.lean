import Konative.Lib.Lts
import Mathlib.Data.List.Infix

/-!
# The queue with one producer

`SpscEventQueue` has one thread that posts and one that drains.  Events come out in the
order they were posted.  While the producer runs, `try_dequeue` may answer that there is
none though one has been posted: what the other thread did need not be visible yet.  Once
it has been joined it is.

`run_spsc_event_queue_concurrent_self_check` drains while a producer posts.  In whatever way
the two threads interleave, and whenever the clock passes the deadline: it can only ever
have received the first events in order, it can always go on to its end, and it returns
`true` unless it has timed out (`returns_not_timed_out`).
-/

namespace Konative.Scheduling.SpscEventQueue

/-! ## The self check -/

/-- Where the calling thread is. -/
inductive Pc
  /-- About to compare `received.size()` with `event_count`, in the head of the loop. -/
  | testing
  /-- In `drain_into`, in the loop or after the producer was joined. -/
  | draining (joined : Bool)
  /-- In the dispatcher's `update`. -/
  | updating (joined : Bool)
  /-- About to look at the clock. -/
  | checking
  /-- In `producer.join()`. -/
  | joining
  /-- About to compare what was received. -/
  | comparing
  | returned (result : Bool)
deriving DecidableEq, Repr

/-- The producer, the queue, the dispatcher, and the calling thread. -/
structure SelfCheck where
  /-- `i` of the producer's loop. -/
  posted : Nat
  queue : List Nat
  dispatcher : List Nat
  received : List Nat
  timedOut : Bool
  pc : Pc

/-- Who takes a step. -/
inductive Thread
  | producer
  | consumer
deriving DecidableEq, Repr

/-- The comparisons at the end. -/
def compare (eventCount : Nat) (received : List Nat) : Bool :=
  received.length == eventCount &&
    (List.range eventCount).all fun i ↦ received[i]? == some i

/-- `run_spsc_event_queue_concurrent_self_check(event_count)`, step by step. -/
inductive Step (eventCount : Nat) (s : SelfCheck) : Thread → SelfCheck → Prop
  | post (h : s.posted < eventCount) :
      Step eventCount s .producer
        { s with queue := s.queue ++ [s.posted], posted := s.posted + 1 }
  | enter (hpc : s.pc = .testing) (h : s.received.length < eventCount) :
      Step eventCount s .consumer { s with pc := .draining false }
  | leave (hpc : s.pc = .testing) (h : ¬ s.received.length < eventCount) :
      Step eventCount s .consumer { s with pc := .joining }
  | dequeue (joined : Bool) (i : Nat) (queue : List Nat) (hpc : s.pc = .draining joined)
      (h : s.queue = i :: queue) :
      Step eventCount s .consumer { s with queue, dispatcher := s.dispatcher ++ [i] }
  /-- `try_dequeue` is `false`: there is no event, or none is visible yet. -/
  | drained (joined : Bool) (hpc : s.pc = .draining joined)
      (h : joined = true → s.queue = []) :
      Step eventCount s .consumer { s with pc := .updating joined }
  | deliver (joined : Bool) (i : Nat) (dispatcher : List Nat) (hpc : s.pc = .updating joined)
      (h : s.dispatcher = i :: dispatcher) :
      Step eventCount s .consumer { s with dispatcher, received := s.received ++ [i] }
  | updated (joined : Bool) (hpc : s.pc = .updating joined) (h : s.dispatcher = []) :
      Step eventCount s .consumer { s with pc := if joined then .comparing else .checking }
  /-- All have been received, or the clock has not passed the deadline. -/
  | again (hpc : s.pc = .checking) : Step eventCount s .consumer { s with pc := .testing }
  | timeOut (hpc : s.pc = .checking) (h : s.received.length < eventCount) :
      Step eventCount s .consumer { s with timedOut := true, pc := .joining }
  | joined (hpc : s.pc = .joining) (h : s.posted = eventCount) :
      Step eventCount s .consumer
        { s with pc := if s.timedOut then .returned false else .draining true }
  | compared (hpc : s.pc = .comparing) :
      Step eventCount s .consumer { s with pc := .returned (compare eventCount s.received) }

/-- The self check and its producer. -/
def system (eventCount : Nat) : Lts SelfCheck Thread where
  init s := s = ⟨0, [], [], [], false, .testing⟩
  step := Step eventCount

variable {n : Nat} {s s' : SelfCheck} {t : Thread}

/-! ## What is received -/

/-- The comparisons say that everything was received in order. -/
theorem compare_eq_true {received : List Nat} :
    compare n received = true ↔ received = List.range n := by
  rw [compare, Bool.and_eq_true, beq_iff_eq, List.all_eq_true]
  constructor
  · rintro ⟨hlength, hall⟩
    apply List.ext_getElem?
    intro i
    by_cases hi : i < n
    · rw [beq_iff_eq.mp (hall i (List.mem_range.mpr hi)), List.getElem?_range hi]
    · rw [List.getElem?_eq_none (by omega), List.getElem?_eq_none (by simpa using hi)]
  · rintro rfl
    refine ⟨List.length_range, fun i hi ↦ ?_⟩
    rw [beq_iff_eq, List.getElem?_range (List.mem_range.mp hi)]

/-- After the loop. -/
def Pc.AfterLoop : Pc → Prop
  | joining | draining true | updating true | comparing => True
  | testing | draining false | updating false | checking | returned _ => False

/-- What was posted is received, held by the dispatcher, or in the queue, in this order. -/
structure Inv (n : Nat) (s : SelfCheck) : Prop where
  fifo : s.received ++ s.dispatcher ++ s.queue = List.range s.posted
  le : s.posted ≤ n
  /-- A thread that does not time out leaves the loop with everything. -/
  complete : s.timedOut = false → s.pc.AfterLoop → s.received = List.range n
  timedOut : s.timedOut = true → s.pc = .joining ∨ s.pc = .returned false
  returned : ∀ b, s.pc = .returned b → b = !s.timedOut ∧ (b = true → s.received = List.range n)

theorem inv_init : Inv n ⟨0, [], [], [], false, .testing⟩ where
  fifo := rfl
  le := Nat.zero_le n
  complete _ h := h.elim
  timedOut := nofun
  returned := nofun

/-- The length says that everything was received. -/
theorem Inv.received_eq (hs : Inv n s) (h : ¬ s.received.length < n) :
    s.received = List.range n ∧ s.dispatcher = [] ∧ s.queue = [] := by
  have hlength := congrArg List.length hs.fifo
  rw [List.length_append, List.length_append, List.length_range] at hlength
  have hle := hs.le
  have hdispatcher : s.dispatcher = [] := List.eq_nil_of_length_eq_zero (by omega)
  have hqueue : s.queue = [] := List.eq_nil_of_length_eq_zero (by omega)
  have hposted : s.posted = n := by omega
  have hfifo := hs.fifo
  rw [hdispatcher, hqueue, List.append_nil, List.append_nil, hposted] at hfifo
  exact ⟨hfifo, hdispatcher, hqueue⟩

/-- A thread that has timed out is not in the loop any more. -/
theorem Inv.timedOut_eq_false (hs : Inv n s) (hjoining : s.pc ≠ .joining)
    (hreturned : s.pc ≠ .returned false) : s.timedOut = false := by
  cases ht : s.timedOut with
  | false => rfl
  | true => exact ((hs.timedOut ht).elim hjoining hreturned).elim

theorem Step.inv (h : Step n s t s') (hs : Inv n s) : Inv n s' := by
  cases h with
  | post h =>
      refine ⟨?_, h, hs.complete, hs.timedOut, hs.returned⟩
      rw [← List.append_assoc, hs.fifo, List.range_succ]
  | enter hpc h =>
      have ht := hs.timedOut_eq_false (by rw [hpc]; nofun) (by rw [hpc]; nofun)
      exact ⟨hs.fifo, hs.le, fun _ h ↦ h.elim, fun h ↦ absurd (ht.symm.trans h) nofun, nofun⟩
  | leave hpc h => exact ⟨hs.fifo, hs.le, fun _ _ ↦ (hs.received_eq h).1, fun _ ↦ .inl rfl, nofun⟩
  | dequeue joined i queue hpc h =>
      refine ⟨?_, hs.le, hs.complete, hs.timedOut, hs.returned⟩
      rw [← hs.fifo, h]
      simp only [List.append_assoc, List.cons_append, List.nil_append]
  | drained joined hpc h =>
      have ht := hs.timedOut_eq_false (by rw [hpc]; nofun) (by rw [hpc]; nofun)
      refine ⟨hs.fifo, hs.le, fun _ hafter ↦ hs.complete ht ?_,
        fun h ↦ absurd (ht.symm.trans h) nofun, nofun⟩
      rw [hpc]
      cases joined with
      | true => trivial
      | false => exact hafter.elim
  | deliver joined i dispatcher hpc h =>
      have ht := hs.timedOut_eq_false (by rw [hpc]; nofun) (by rw [hpc]; nofun)
      refine ⟨?_, hs.le, fun _ hafter ↦ ?_, hs.timedOut,
        fun b hb ↦ absurd (hpc.symm.trans hb) nofun⟩
      · rw [← hs.fifo, h]
        simp only [List.append_assoc, List.cons_append, List.nil_append]
      · -- with everything received there is nothing to deliver
        have hall := hs.complete ht hafter
        have hnil := (hs.received_eq (by rw [hall, List.length_range]; omega)).2.1
        rw [hnil] at h
        cases h
  | updated joined hpc h =>
      have ht := hs.timedOut_eq_false (by rw [hpc]; nofun) (by rw [hpc]; nofun)
      refine ⟨hs.fifo, hs.le, fun _ hafter ↦ hs.complete ht ?_,
        fun h ↦ absurd (ht.symm.trans h) nofun, ?_⟩
      · rw [hpc]
        cases joined with
        | true => trivial
        | false => exact hafter.elim
      · cases joined <;> exact nofun
  | again hpc =>
      have ht := hs.timedOut_eq_false (by rw [hpc]; nofun) (by rw [hpc]; nofun)
      exact ⟨hs.fifo, hs.le, fun _ h ↦ h.elim, fun h ↦ absurd (ht.symm.trans h) nofun, nofun⟩
  | timeOut hpc h => exact ⟨hs.fifo, hs.le, nofun, fun _ ↦ .inl rfl, nofun⟩
  | joined hpc h =>
      cases ht : s.timedOut with
      | true =>
          refine ⟨hs.fifo, hs.le, nofun, fun _ ↦ .inr rfl, ?_⟩
          intro b hb
          obtain rfl := Pc.returned.inj hb
          exact ⟨rfl, nofun⟩
      | false =>
          refine ⟨hs.fifo, hs.le, fun _ _ ↦ hs.complete ht ?_, nofun, nofun⟩
          rw [hpc]
          trivial
  | compared hpc =>
      have ht := hs.timedOut_eq_false (by rw [hpc]; nofun) (by rw [hpc]; nofun)
      have hall : s.received = List.range n := hs.complete ht (by rw [hpc]; trivial)
      have hcompare : compare n s.received = true := compare_eq_true.mpr hall
      refine ⟨hs.fifo, hs.le, fun _ h ↦ h.elim, fun h ↦ absurd (ht.symm.trans h) nofun, ?_⟩
      intro b hb
      obtain rfl := Pc.returned.inj hb
      exact ⟨by rw [hcompare, ht]; rfl, fun _ ↦ hall⟩

theorem inv_of_reachable (h : (system n).Reachable s) : Inv n s :=
  h.invariant (fun {s} hinit ↦ by obtain rfl : s = _ := hinit; exact inv_init) Step.inv

/-- Whatever has been received are the first events in order. -/
theorem Inv.received_first (hs : Inv n s) : s.received <+: List.range n := by
  have hposted : List.range s.posted <+: List.range n := by
    rw [← Nat.min_eq_left hs.le, ← List.take_range]
    exact List.take_prefix ..
  refine List.IsPrefix.trans ⟨s.dispatcher ++ s.queue, ?_⟩ hposted
  rw [← List.append_assoc, hs.fifo]

/-! ## It can go on to its end -/

/-- A run on which the clock does not pass the deadline ends the check. -/
def Ends (n : Nat) (s : SelfCheck) : Prop :=
  ∃ w s', (system n).Run s w s' ∧ s'.pc = .returned (!s.timedOut)

theorem Ends.of_run {w : List Thread} (hr : (system n).Run s w s')
    (ht : s'.timedOut = s.timedOut) (h : Ends n s') : Ends n s := by
  obtain ⟨w', s'', hr', hpc⟩ := h
  exact ⟨w ++ w', s'', hr.append hr', by rw [hpc, ht]⟩

theorem Ends.of_step (hstep : Step n s t s') (ht : s'.timedOut = s.timedOut)
    (h : Ends n s') : Ends n s :=
  .of_run (.single hstep) ht h

/-- The producer posts the rest. -/
theorem exists_run_post (hs : s.posted ≤ n) :
    ∃ w s', (system n).Run s w s' ∧ s'.posted = n ∧ s'.timedOut = s.timedOut := by
  induction hk : n - s.posted generalizing s with
  | zero => exact ⟨[], s, .nil s, by omega, rfl⟩
  | succ k ih =>
      have hlt : s.posted < n := by omega
      obtain ⟨w, s', hr, hposted, ht⟩ :=
        ih (s := { s with queue := s.queue ++ [s.posted], posted := s.posted + 1 }) hlt
          (by show n - (s.posted + 1) = k; omega)
      exact ⟨_, s', .cons (.post hlt) hr, hposted, ht⟩

/-- `drain_into` ends, however many events there are. -/
theorem exists_run_drain {joined : Bool} (hpc : s.pc = .draining joined) :
    ∃ w s', (system n).Run s w s' ∧ s'.pc = .updating joined ∧ s'.queue = [] ∧
      s'.posted = s.posted ∧ s'.timedOut = s.timedOut := by
  induction hq : s.queue generalizing s with
  | nil =>
      exact ⟨_, { s with pc := .updating joined }, .single (.drained joined hpc fun _ ↦ hq), rfl,
        hq, rfl, rfl⟩
  | cons i queue ih =>
      obtain ⟨w, s', hr, h⟩ :=
        ih (s := { s with queue, dispatcher := s.dispatcher ++ [i] }) hpc rfl
      exact ⟨_, s', .cons (.dequeue joined i queue hpc hq) hr, h⟩

/-- `update` ends, however many events there are. -/
theorem exists_run_update {joined : Bool} (hpc : s.pc = .updating joined) :
    ∃ w s', (system n).Run s w s' ∧ s'.pc = (if joined then .comparing else .checking) ∧
      s'.dispatcher = [] ∧ s'.queue = s.queue ∧ s'.posted = s.posted ∧
      s'.timedOut = s.timedOut := by
  induction hq : s.dispatcher generalizing s with
  | nil =>
      exact ⟨_, { s with pc := if joined then .comparing else .checking },
        .single (.updated joined hpc hq), rfl, hq, rfl, rfl, rfl⟩
  | cons i dispatcher ih =>
      obtain ⟨w, s', hr, h⟩ :=
        ih (s := { s with dispatcher, received := s.received ++ [i] }) hpc rfl
      exact ⟨_, s', .cons (.deliver joined i dispatcher hpc hq) hr, h⟩

theorem Inv.ends_comparing (hs : Inv n s) (hpc : s.pc = .comparing) : Ends n s := by
  have ht := hs.timedOut_eq_false (by rw [hpc]; nofun) (by rw [hpc]; nofun)
  have hall : s.received = List.range n := hs.complete ht (by rw [hpc]; trivial)
  have hstep : Step n s .consumer { s with pc := .returned (compare n s.received) } :=
    .compared hpc
  refine ⟨_, _, .single hstep, ?_⟩
  rw [compare_eq_true.mpr hall, ht]
  rfl

theorem Inv.ends_updating_joined (hs : Inv n s) (hpc : s.pc = .updating true) : Ends n s := by
  obtain ⟨w, s', hr, hpc', -, -, -, ht⟩ := exists_run_update hpc
  exact .of_run hr ht ((hr.invariant Step.inv hs).ends_comparing hpc')

theorem Inv.ends_draining_joined (hs : Inv n s) (hpc : s.pc = .draining true) : Ends n s := by
  obtain ⟨w, s', hr, hpc', -, -, ht⟩ := exists_run_drain hpc
  exact .of_run hr ht ((hr.invariant Step.inv hs).ends_updating_joined hpc')

theorem Inv.ends_joining (hs : Inv n s) (hpc : s.pc = .joining) (hposted : s.posted = n) :
    Ends n s := by
  have hstep := Step.joined hpc hposted
  cases ht : s.timedOut with
  | true => exact ⟨_, _, .single hstep, by rw [ht]; rfl⟩
  | false =>
      refine .of_step hstep rfl ((hstep.inv hs).ends_draining_joined ?_)
      rw [ht]
      rfl

/-- With everything received it leaves the loop. -/
theorem Inv.ends_received (hs : Inv n s) (hpc : s.pc = .testing) (hposted : s.posted = n)
    (h : ¬ s.received.length < n) : Ends n s :=
  have hstep := Step.leave hpc h
  .of_step hstep rfl ((hstep.inv hs).ends_joining rfl hposted)

/-- Once around the loop everything has been received. -/
theorem Inv.ends_draining (hs : Inv n s) (hpc : s.pc = .draining false)
    (hposted : s.posted = n) : Ends n s := by
  obtain ⟨w, s', hr, hpc', hqueue', hposted', ht'⟩ := exists_run_drain (n := n) hpc
  obtain ⟨v, u, hr', hpc'', hdispatcher, hqueue, hposted'', ht''⟩ := exists_run_update (n := n) hpc'
  have hu := (hr.append hr').invariant Step.inv hs
  have hreceived := hu.fifo
  rw [hdispatcher, hqueue, hqueue', List.append_nil, List.append_nil, hposted'', hposted',
    hposted] at hreceived
  have hstep : Step n u .consumer { u with pc := .testing } := .again hpc''
  refine .of_run (hr.append hr') (ht''.trans ht') (.of_step hstep rfl ?_)
  refine (hstep.inv hu).ends_received rfl (hposted''.trans (hposted'.trans hposted)) ?_
  show ¬ u.received.length < n
  rw [hreceived, List.length_range]
  exact lt_irrefl n

theorem Inv.ends_testing (hs : Inv n s) (hpc : s.pc = .testing) (hposted : s.posted = n) :
    Ends n s := by
  by_cases h : s.received.length < n
  · have hstep := Step.enter hpc h
    exact .of_step hstep rfl ((hstep.inv hs).ends_draining rfl hposted)
  · exact hs.ends_received hpc hposted h

theorem Inv.ends_checking (hs : Inv n s) (hpc : s.pc = .checking) (hposted : s.posted = n) :
    Ends n s :=
  have hstep := Step.again hpc
  .of_step hstep rfl ((hstep.inv hs).ends_testing rfl hposted)

theorem Inv.ends_updating (hs : Inv n s) (hpc : s.pc = .updating false)
    (hposted : s.posted = n) : Ends n s := by
  obtain ⟨w, s', hr, hpc', -, -, hposted', ht⟩ := exists_run_update (n := n) hpc
  exact .of_run hr ht
    ((hr.invariant Step.inv hs).ends_checking hpc' (hposted'.trans hposted))

theorem Inv.ends (hs : Inv n s) : Ends n s := by
  obtain ⟨w, s', hr, hposted, ht⟩ := exists_run_post hs.le
  have hs' := hr.invariant Step.inv hs
  refine .of_run hr ht ?_
  cases hpc : s'.pc with
  | testing => exact hs'.ends_testing hpc hposted
  | draining joined =>
      cases joined with
      | true => exact hs'.ends_draining_joined hpc
      | false => exact hs'.ends_draining hpc hposted
  | updating joined =>
      cases joined with
      | true => exact hs'.ends_updating_joined hpc
      | false => exact hs'.ends_updating hpc hposted
  | checking => exact hs'.ends_checking hpc hposted
  | joining => exact hs'.ends_joining hpc hposted
  | comparing => exact hs'.ends_comparing hpc
  | returned b => exact ⟨[], s', .nil s', by rw [hpc, (hs'.returned b hpc).1]⟩

/-- However the two threads interleave, the first events are received in order, what the
check returns is whether it has not timed out, and it can always go on to its end. -/
theorem returns_not_timed_out (h : (system n).Reachable s) :
    s.received <+: List.range n ∧
    (∀ b, s.pc = .returned b → b = !s.timedOut ∧ (b = true → s.received = List.range n)) ∧
    ∃ w s', (system n).Run s w s' ∧ s'.pc = .returned (!s.timedOut) :=
  have hs := inv_of_reachable h
  ⟨hs.received_first, hs.returned, hs.ends⟩

/-- Two events: one is posted before the thread drains the queue, and the other while it does. -/
theorem returns_not_timed_out_drained :
    ∃ s, (system 2).Reachable s ∧ s.pc = .draining false ∧ s.dispatcher = [0] ∧ s.queue = [1] ∧
      s.received <+: List.range 2 ∧
      ∃ w s', (system 2).Run s w s' ∧ s'.pc = .returned true := by
  have hr : (system 2).Reachable ⟨2, [1], [0], [], false, .draining false⟩ :=
    ⟨_, _, rfl, .cons (.post Nat.two_pos) (.cons (.enter rfl Nat.two_pos)
      (.cons (.dequeue false 0 [] rfl rfl) (.single (.post Nat.one_lt_two))))⟩
  have h := returns_not_timed_out hr
  exact ⟨_, hr, rfl, rfl, rfl, h.1, h.2.2⟩

end Konative.Scheduling.SpscEventQueue
