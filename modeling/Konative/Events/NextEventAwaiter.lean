import Konative.Lib.Lts

/-!
# Awaiting the next event

`NextEventAwaiter` with one consumer.  `next()` is a lazy task: its body, which resets the
event and waits for it, runs when the task is awaited and not when it is made.  An event that
fires in between is discarded by the reset, so a task delivers the first event after the call
of `next()` exactly if no event fires between the call and the await.

The consumer is one coroutine, so at most one task waits at a time.  It is resumed within
`on_event`, and what it does until it is suspended again are the next steps of the system; the
`set()` that resumed it has nothing left to do after them.
-/

namespace Konative.Events

universe u v

variable {ι : Type u} {E : Type v}

/-! ## `coro::event` -/

/-- `coro::event`: set, or a list of the coroutines that wait for it. -/
inductive CoroEvent (ι : Type u)
  | set
  | unset (waiters : List ι)

namespace CoroEvent

def waiters : CoroEvent ι → List ι
  | set => []
  | unset waiters => waiters

/-- `set()`, and the coroutines it resumes. -/
def fire : CoroEvent ι → CoroEvent ι × List ι
  | set => (set, [])
  | unset waiters => (set, waiters)

/-- `reset()`. -/
def reset : CoroEvent ι → CoroEvent ι
  | set => unset []
  | unset waiters => unset waiters

/-- `co_await` by `i`, and whether `i` is suspended. -/
def await (i : ι) : CoroEvent ι → CoroEvent ι × Bool
  | set => (set, false)
  | unset waiters => (unset (i :: waiters), true)

theorem fire_eq (e : CoroEvent ι) : e.fire = (set, e.waiters) := by
  cases e with
  | set => rfl
  | unset waiters => rfl

/-- After a reset one always has to wait. -/
theorem await_reset (i : ι) (e : CoroEvent ι) :
    e.reset.await i = (unset (i :: e.waiters), true) := by
  cases e with
  | set => rfl
  | unset waiters => rfl

end CoroEvent

/-! ## The awaiter and its consumer -/

/-- `NextEventAwaiter<Event>`. -/
structure NextEventAwaiter (ι : Type u) (E : Type v) where
  ready : CoroEvent ι
  lastValue : E

/-- `on_event(event)`, and the coroutines it resumes. -/
def NextEventAwaiter.onEvent (a : NextEventAwaiter ι E) (event : E) :
    NextEventAwaiter ι E × List ι :=
  let (ready, resumed) := a.ready.fire
  (⟨ready, event⟩, resumed)

/-- A task made by `next()`. -/
inductive Task (E : Type v)
  /-- Nothing of its body has run. -/
  | lazy
  /-- It waits for the event. -/
  | suspended
  | completed (value : E)

/-- An awaiter, the tasks it has made, and the one the consumer awaits. -/
structure State (ι : Type u) (E : Type v) where
  awaiter : NextEventAwaiter ι E
  tasks : ι → Option (Task E)
  awaiting : Option ι

/-- What happens. -/
inductive Label (ι : Type u) (E : Type v)
  /-- `dispatcher.trigger(event)`, by whomever. -/
  | trigger (event : E)
  /-- The consumer calls `next()` and gets the task `i`. -/
  | next (i : ι)
  /-- The consumer awaits the task `i`. -/
  | await (i : ι)
deriving DecidableEq, Repr

/-- The event of a trigger. -/
def Label.event? : Label ι E → Option E
  | trigger event => some event
  | next _ => none
  | await _ => none

namespace State

/-- A new awaiter. -/
def start (value : E) : State ι E := ⟨⟨.unset [], value⟩, fun _ ↦ none, none⟩

variable [DecidableEq ι]

/-- The task `i` goes on after its wait: `co_return last_value_`, which resumes the consumer. -/
def resume (s : State ι E) (i : ι) : State ι E :=
  { s with
    tasks := Function.update s.tasks i (some (.completed s.awaiter.lastValue))
    awaiting := none }

/-- The body of `next()` for the task `i`, up to where it is suspended. -/
def run (s : State ι E) (i : ι) : State ι E :=
  match s.awaiter.ready.reset.await i with
  | (ready, true) =>
      ⟨⟨ready, s.awaiter.lastValue⟩, Function.update s.tasks i (some .suspended), some i⟩
  | (ready, false) => { s with awaiter := ⟨ready, s.awaiter.lastValue⟩ }.resume i

/-- One step; nothing where the consumer cannot take it. -/
def step (s : State ι E) : Label ι E → Option (State ι E)
  | .trigger event =>
      let (awaiter, resumed) := s.awaiter.onEvent event
      some (resumed.foldl resume { s with awaiter := awaiter })
  | .next i =>
      if s.awaiting.isNone && (s.tasks i).isNone then
        some { s with tasks := Function.update s.tasks i (some .lazy) }
      else none
  | .await i =>
      match s.awaiting, s.tasks i with
      | none, some .lazy => some (s.run i)
      | _, _ => none

/-- All runs of an awaiter whose event is `value` to begin with. -/
def system (value : E) : Lts (State ι E) (Label ι E) where
  init s := s = start value
  step s ℓ s' := s.step ℓ = some s'

/-! ## The task that waits -/

/-- The coroutine that waits for the event is the task that the consumer awaits. -/
structure Coupled (s : State ι E) : Prop where
  waiters_eq : s.awaiter.ready.waiters = s.awaiting.toList
  suspended_iff : ∀ i, s.tasks i = some .suspended ↔ s.awaiting = some i

/-- What a step does. -/
inductive Effect (s : State ι E) : Label ι E → State ι E → Prop
  /-- Nobody waits for the event. -/
  | pass {event} (h : s.awaiting = none) :
      Effect s (.trigger event) ⟨⟨.set, event⟩, s.tasks, none⟩
  /-- The event completes the task that the consumer awaits. -/
  | wake {event i} (h : s.awaiting = some i) :
      Effect s (.trigger event)
        ⟨⟨.set, event⟩, Function.update s.tasks i (some (.completed event)), none⟩
  | next {i} (h : s.awaiting = none) (hi : s.tasks i = none) :
      Effect s (.next i) { s with tasks := Function.update s.tasks i (some .lazy) }
  | await {i} (h : s.awaiting = none) (hi : s.tasks i = some .lazy) :
      Effect s (.await i)
        ⟨⟨.unset [i], s.awaiter.lastValue⟩, Function.update s.tasks i (some .suspended), some i⟩

variable {s s' : State ι E} {ℓ : Label ι E}

theorem effect_of_step (hs : s.Coupled) (h : s.step ℓ = some s') : Effect s ℓ s' := by
  cases ℓ with
  | trigger event =>
      simp only [step, NextEventAwaiter.onEvent, CoroEvent.fire_eq, hs.waiters_eq] at h
      cases ha : s.awaiting with
      | none =>
          rw [ha] at h
          cases h
          exact .pass ha
      | some i =>
          rw [ha] at h
          cases h
          exact .wake ha
  | next i =>
      simp only [step] at h
      split at h
      · rename_i hguard
        rw [Bool.and_eq_true, Option.isNone_iff_eq_none, Option.isNone_iff_eq_none] at hguard
        cases h
        exact .next hguard.1 hguard.2
      · cases h
  | await i =>
      simp only [step] at h
      split at h
      · rename_i ha hi
        cases h
        have hwaiters := hs.waiters_eq
        rw [ha, Option.toList_none] at hwaiters
        rw [run, CoroEvent.await_reset, hwaiters]
        exact .await ha hi
      · cases h

omit [DecidableEq ι] in
theorem coupled_start (value : E) : (start value : State ι E).Coupled := by
  constructor
  · rfl
  · intro i
    constructor
    · rintro ⟨⟩
    · rintro ⟨⟩

theorem suspended_of_await {i : ι} (hs : s.Coupled) (h : s.step (.await i) = some s') :
    s'.tasks i = some .suspended := by
  cases effect_of_step hs h with
  | await ha hi => exact Function.update_self ..

theorem Coupled.effect (hs : s.Coupled) (h : Effect s ℓ s') : s'.Coupled := by
  cases h with
  | pass ha =>
      refine ⟨rfl, fun j ↦ ?_⟩
      rw [hs.suspended_iff, ha]
  | @wake event i ha =>
      refine ⟨rfl, fun j ↦ iff_of_false ?_ (by rintro ⟨⟩)⟩
      intro hj
      rcases Lts.update_eq_some hj with ⟨-, htask⟩ | ⟨hne, htask⟩
      · cases htask
      · rw [hs.suspended_iff, ha] at htask
        exact hne (Option.some.inj htask).symm
  | @next i ha hi =>
      refine ⟨hs.waiters_eq, fun j ↦ ?_⟩
      rw [← hs.suspended_iff]
      constructor
      · intro hj
        rcases Lts.update_eq_some hj with ⟨-, htask⟩ | ⟨-, htask⟩
        · cases htask
        · exact htask
      · intro hj
        refine Lts.update_eq_some_of_ne ?_ hj
        rintro rfl
        rw [hi] at hj
        cases hj
  | @await i ha hi =>
      refine ⟨rfl, fun j ↦ ?_⟩
      constructor
      · intro hj
        rcases Lts.update_eq_some hj with ⟨rfl, -⟩ | ⟨-, htask⟩
        · rfl
        · rw [hs.suspended_iff, ha] at htask
          cases htask
      · intro hj
        cases hj
        exact Function.update_self ..

/-! ## What a run delivers -/

/-- The events that were triggered. -/
def triggers (w : List (Label ι E)) : List E := w.filterMap Label.event?

/-- No event was triggered since `next()` was called for `i`. -/
def Fresh (w : List (Label ι E)) (i : ι) : Prop :=
  ∀ w₁ w₂, w = w₁ ++ .next i :: w₂ → triggers w₂ = []

/-- What the step `ℓ` should do after the history `w`. -/
structure Delivers (w : List (Label ι E)) (s : State ι E) (ℓ : Label ι E) (s' : State ι E) :
    Prop where
  /-- A task is completed by an event and with it, and by the first one since the call of
  `next()`. -/
  completes : ∀ i value, s.tasks i ≠ some (.completed value) →
    s'.tasks i = some (.completed value) → ℓ = .trigger value ∧ .next i ∈ w ∧ Fresh w i
  /-- No event completes two tasks. -/
  one : ∀ i j v v', s.tasks i ≠ some (.completed v) → s'.tasks i = some (.completed v) →
    s.tasks j ≠ some (.completed v') → s'.tasks j = some (.completed v') → i = j
  /-- A task that still waits has missed none. -/
  prompt : ∀ i, s'.tasks i = some .suspended → Fresh (w ++ [ℓ]) i

/-- Every step of the run `w` does so. -/
def DeliversAlong (value : E) (w : List (Label ι E)) : Prop :=
  ∀ w₁ ℓ w₂ s s', w = w₁ ++ ℓ :: w₂ → (system value).Run (start value) w₁ s →
    s.step ℓ = some s' → Delivers w₁ s ℓ s'

/-- No event is triggered between a call of `next()` and the await of its task. -/
def AwaitedInTime (w : List (Label ι E)) : Prop :=
  ∀ w₁ i w₂ w₃, w = w₁ ++ .next i :: w₂ ++ .await i :: w₃ → triggers w₂ = []

section Run

variable {value : E} {w : List (Label ι E)} {i : ι}

theorem coupled_of_run (h : (system value).Run (start value) w s) : s.Coupled :=
  h.invariant (fun hstep hs ↦ hs.effect (effect_of_step hs hstep)) (coupled_start value)

/-- A task was made by a call. -/
theorem mem_of_run (h : (system value).Run (start value) w s) {t : Task E}
    (ht : s.tasks i = some t) : .next i ∈ w := by
  refine h.history (P := fun w s ↦ ∀ i t, s.tasks i = some t → .next i ∈ w) ?_ ?_ i t ht
  · rintro i t ⟨⟩
  · intro w s ℓ s' hrun hP hstep i t ht
    rw [List.mem_append]
    cases effect_of_step (coupled_of_run hrun) hstep with
    | pass ha => exact .inl (hP i t ht)
    | @wake event j ha =>
        rcases Lts.update_eq_some ht with ⟨rfl, -⟩ | ⟨-, ht⟩
        · exact .inl (hP i .suspended ((coupled_of_run hrun).suspended_iff i |>.mpr ha))
        · exact .inl (hP i t ht)
    | @next j ha hj =>
        rcases Lts.update_eq_some ht with ⟨rfl, -⟩ | ⟨-, ht⟩
        · exact .inr List.mem_cons_self
        · exact .inl (hP i t ht)
    | @await j ha hj =>
        rcases Lts.update_eq_some ht with ⟨rfl, -⟩ | ⟨-, ht⟩
        · exact .inl (hP i .lazy hj)
        · exact .inl (hP i t ht)

omit [DecidableEq ι] in
theorem AwaitedInTime.of_append {w' : List (Label ι E)} (h : AwaitedInTime (w ++ w')) :
    AwaitedInTime w := by
  rintro w₁ i w₂ w₃ rfl
  exact h w₁ i w₂ (w₃ ++ w') (by simp)

omit [DecidableEq ι] in
/-- A step other than a trigger discards no event. -/
theorem fresh_snoc (hℓ : ℓ.event? = none) : Fresh (w ++ [ℓ]) i ↔ Fresh w i := by
  have htriggers : ∀ v : List (Label ι E), triggers (v ++ [ℓ]) = triggers v := by
    intro v
    simp [triggers, hℓ]
  constructor
  · rintro h w₁ w₂ rfl
    rw [← htriggers]
    exact h w₁ (w₂ ++ [ℓ]) (by simp)
  · intro h w₁ w₂ hsplit
    rcases Lts.cut_snoc hsplit with ⟨rfl, rfl⟩ | ⟨w₂, rfl, rfl⟩
    · have hnil : w₂ = [] := by simpa using hsplit
      rw [hnil]
      rfl
    · rw [htriggers]
      exact h w₁ w₂ rfl

omit [DecidableEq ι] in
/-- Nor does a trigger before the call. -/
theorem fresh_of_notMem (h : .next i ∉ w) : Fresh w i := by
  rintro w₁ w₂ rfl
  exact absurd (by simp) h

omit [DecidableEq ι] in
theorem awaitedInTime_nil : AwaitedInTime ([] : List (Label ι E)) := by
  intro w₁ i w₂ w₃ hsplit
  simp at hsplit

omit [DecidableEq ι] in
theorem awaitedInTime_snoc :
    AwaitedInTime (w ++ [ℓ]) ↔ AwaitedInTime w ∧ ∀ i, ℓ = .await i → Fresh w i := by
  constructor
  · intro h
    refine ⟨h.of_append, ?_⟩
    rintro i rfl w₁ w₂ rfl
    exact h w₁ i w₂ [] rfl
  · rintro ⟨hw, hℓ⟩ w₁ i w₂ w₃ hsplit
    rcases Lts.cut_snoc hsplit with ⟨rfl, rfl⟩ | ⟨w₃, rfl, -⟩
    · exact hℓ i rfl w₁ w₂ rfl
    · exact hw w₁ i w₂ w₃ rfl

omit [DecidableEq ι] in
/-- A task is awaited before the next event. -/
theorem AwaitedInTime.fresh (h : AwaitedInTime (w ++ [.await i])) : Fresh (w ++ [.await i]) i :=
  (fresh_snoc rfl).mpr ((awaitedInTime_snoc.mp h).2 i rfl)

/-- So the task that waits has missed no event. -/
theorem fresh_of_run (h : (system value).Run (start value) w s) (hw : AwaitedInTime w)
    (hi : s.awaiting = some i) : Fresh w i := by
  refine h.history (P := fun w s ↦ AwaitedInTime w → ∀ i, s.awaiting = some i → Fresh w i) ?_ ?_
    hw i hi
  · rintro - i ⟨⟩
  · intro w s ℓ s' hrun _ hstep hw i hi
    -- the only step after which a task waits is the await of it
    cases effect_of_step (coupled_of_run hrun) hstep with
    | pass ha => cases hi
    | wake ha => cases hi
    | next ha =>
        rw [ha] at hi
        cases hi
    | await ha =>
        cases hi
        exact hw.fresh

/-- A task that a step completes is the one that was awaited, and the step is a trigger. -/
theorem completed_of_step (hs : s.Coupled) (hstep : s.step ℓ = some s') {v : E}
    (hold : s.tasks i ≠ some (.completed v)) (hnew : s'.tasks i = some (.completed v)) :
    ℓ = .trigger v ∧ s.awaiting = some i := by
  cases effect_of_step hs hstep with
  | pass ha => exact absurd hnew hold
  | wake ha =>
      rcases Lts.update_eq_some hnew with ⟨rfl, heq⟩ | ⟨-, htask⟩
      · cases heq
        exact ⟨rfl, ha⟩
      · exact absurd htask hold
  | next ha =>
      rcases Lts.update_eq_some hnew with ⟨-, heq⟩ | ⟨-, htask⟩
      · cases heq
      · exact absurd htask hold
  | await ha =>
      rcases Lts.update_eq_some hnew with ⟨-, heq⟩ | ⟨-, htask⟩
      · cases heq
      · exact absurd htask hold

theorem delivers_of_awaitedInTime (h : (system value).Run (start value) w s)
    (hstep : s.step ℓ = some s') (hw : AwaitedInTime (w ++ [ℓ])) : Delivers w s ℓ s' := by
  have hs : s.Coupled := coupled_of_run h
  have hs' : s'.Coupled := coupled_of_run (h.snoc hstep)
  constructor
  · intro i v hold hnew
    obtain ⟨hℓ, ha⟩ := completed_of_step hs hstep hold hnew
    exact ⟨hℓ, mem_of_run h ((hs.suspended_iff i).mpr ha), fresh_of_run h hw.of_append ha⟩
  · intro i j v v' hold hnew hold' hnew'
    have hi := (completed_of_step hs hstep hold hnew).2
    rw [(completed_of_step hs hstep hold' hnew').2] at hi
    exact (Option.some.inj hi).symm
  · intro i hi
    exact fresh_of_run (h.snoc hstep) hw ((hs'.suspended_iff i).mp hi)

/-- The awaiter delivers the next event in every step of a run if and only if no event comes
between a call of `next()` and the await of its task. -/
theorem deliversAlong_iff (h : (system value).Run (start value) w s) :
    DeliversAlong value w ↔ AwaitedInTime w := by
  constructor
  · rintro hdel w₁ i w₂ w₃ rfl
    obtain ⟨s₁, hrun, hrest⟩ := h.split
    cases hrest with
    | cons hstep hrest =>
        have hwaits := suspended_of_await (coupled_of_run hrun) hstep
        have hfresh := (hdel _ _ _ _ _ rfl hrun hstep).prompt i hwaits
        have hnone : triggers (w₂ ++ [.await i]) = [] := hfresh w₁ _ (by simp)
        rw [triggers, List.filterMap_append] at hnone
        exact (List.append_eq_nil_iff.mp hnone).1
  · rintro hw w₁ ℓ w₂ s s' rfl hrun hstep
    have hw' : AwaitedInTime ((w₁ ++ [ℓ]) ++ w₂) := by rwa [List.append_assoc]
    exact delivers_of_awaitedInTime hrun hstep hw'.of_append

end Run

/-- Two tasks, each awaited before the next event; one event comes while nobody waits. -/
def twoTasks : List (Label Nat Nat) :=
  [.trigger 1, .next 0, .await 0, .trigger 2, .trigger 3, .next 1, .next 2, .await 1, .trigger 4]

/-- Each of the two delivers the first event after its call; a third is not awaited. -/
theorem deliversAlong_twoTasks :
    (∃ s, (system 0).Run (start 0) twoTasks s ∧ s.tasks 0 = some (.completed 2) ∧
      s.tasks 1 = some (.completed 4) ∧ s.tasks 2 = some .lazy) ∧ DeliversAlong 0 twoTasks := by
  have hrun : (system 0).Run (start 0) twoTasks _ :=
    .cons rfl (.cons rfl (.cons rfl (.cons rfl (.cons rfl (.cons rfl (.cons rfl
      (.cons rfl (.cons rfl (.nil _)))))))))
  refine ⟨⟨_, hrun, rfl, rfl, rfl⟩, (deliversAlong_iff hrun).mpr ?_⟩
  have hsnoc : twoTasks = [] ++ [.trigger 1] ++ [.next 0] ++ [.await 0] ++ [.trigger 2] ++
      [.trigger 3] ++ [.next 1] ++ [.next 2] ++ [.await 1] ++ [.trigger 4] := rfl
  rw [hsnoc]
  simp only [awaitedInTime_snoc, awaitedInTime_nil, Label.await.injEq, reduceCtorEq, false_imp_iff,
    forall_const, and_true, true_and, forall_eq']
  refine ⟨(fresh_snoc rfl).mpr (fresh_of_notMem ?_), ?_⟩
  · decide
  · refine (fresh_snoc rfl).mpr ((fresh_snoc rfl).mpr (fresh_of_notMem ?_))
    decide

/-- An event between the call and the await is lost, and the task waits for the next one. -/
theorem not_deliversAlong_late :
    (∃ s : State Nat Nat, (system 0).Run (start 0)
      [.next 0, .trigger 1, .await 0, .trigger 2] s ∧ s.tasks 0 = some (.completed 2)) ∧
    ¬DeliversAlong 0 ([.next 0, .trigger 1, .await 0, .trigger 2] : List (Label Nat Nat)) := by
  constructor
  · exact ⟨_, .cons rfl (.cons rfl (.cons rfl (.cons rfl (.nil _)))), rfl⟩
  · intro h
    have hdelivers := h [.next 0, .trigger 1] (.await 0) [.trigger 2] _ _ rfl
      (.cons rfl (.cons rfl (.nil _))) rfl
    have hnone := hdelivers.prompt 0 rfl [] [.trigger 1, .await 0] rfl
    cases hnone

end State

end Konative.Events
