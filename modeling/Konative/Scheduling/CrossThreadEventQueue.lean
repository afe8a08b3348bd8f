import Konative.Lib.Lts
import Mathlib.Data.List.Nodup
import Mathlib.Data.List.Infix

/-!
# The queue across threads

Any thread may post to the queue at any time.  The frame thread goes through frames:
the systems run one by one, the dispatcher delivers what it holds, and `on_tick`
drains the queue into the dispatcher.  Posts interleave with every step of this.

The queue is a bag that hands out the events of one producer in order, and
`update` delivers what was enqueued before it began.  Besides the events drained into
it the dispatcher holds the events that systems enqueue, and those of all other code
of the frame thread.
-/

namespace Konative.Scheduling

variable {ι E D : Type}

/-! ## Events -/

/-- The event of a `post`, with the thread that posts it and how often it had posted. -/
structure Post (ι E : Type) where
  producer : ι
  number : Nat
  event : E
deriving DecidableEq, Repr

/-- What is enqueued on the dispatcher. -/
inductive Queued (ι E D : Type)
  /-- By `drain_into`. -/
  | drained (m : Post ι E)
  /-- By a system. -/
  | system (d : D)
  /-- By anything else, sinks for example. -/
  | other (d : D)

namespace Queued

/-- It was drained, or enqueued by a system. -/
def owed : Queued ι E D → Bool
  | drained _ | system _ => true
  | other _ => false

/-- The post it was drained from. -/
def post? : Queued ι E D → Option (Post ι E)
  | drained m => some m
  | system _ | other _ => none

end Queued

namespace CrossThreadEventQueue

/-- `post`. -/
def post (queue : List (Post ι E)) (m : Post ι E) : List (Post ι E) := queue ++ [m]

/-- A `try_dequeue` that succeeds takes an event with none of its producer before it. -/
def TryDequeue (queue : List (Post ι E)) (m : Post ι E) (queue' : List (Post ι E)) : Prop :=
  ∃ q₁ q₂, queue = q₁ ++ m :: q₂ ∧ queue' = q₁ ++ q₂ ∧ ∀ x ∈ q₁, x.producer ≠ m.producer

/-- The events of one producer are taken in order. -/
theorem TryDequeue.filter [DecidableEq ι] {queue queue' : List (Post ι E)} {m : Post ι E}
    (h : TryDequeue queue m queue') (p : ι) :
    queue.filter (·.producer = p) =
      [m].filter (·.producer = p) ++ queue'.filter (·.producer = p) := by
  obtain ⟨q₁, q₂, rfl, rfl, hq⟩ := h
  rw [List.filter_append, List.filter_append, ← List.singleton_append, List.filter_append]
  by_cases hp : m.producer = p
  · have hnil : q₁.filter (·.producer = p) = [] := by
      rw [List.filter_eq_nil_iff]
      intro x hx
      simpa [← hp] using hq x hx
    rw [hnil, List.nil_append, List.nil_append]
  · have hnil : [m].filter (·.producer = p) = [] := by simp [hp]
    rw [hnil, List.nil_append, List.nil_append]

end CrossThreadEventQueue

/-! ## Frames -/

/-- Where the frame thread is. -/
inductive Pc (ι E D : Type)
  /-- Between two ticks. -/
  | idle
  /-- In `SystemSequence::run`, with this many systems left. -/
  | systems (left : Nat)
  /-- In the dispatcher's `update`, with these events left. -/
  | updating (batch : List (Queued ι E D))
  /-- In `on_tick`, before it drains. -/
  | onTick
  /-- In `drain_into`, with the event taken out and not enqueued yet. -/
  | draining (event : Option (Post ι E))
  /-- In `on_tick`, after it has drained. -/
  | drained

/-- The queue, the dispatcher and the frame thread. -/
structure Frames (ι E D : Type) where
  /-- The number of ticks begun. -/
  frame : Nat
  pc : Pc ι E D
  queue : List (Post ι E)
  dispatcher : List (Queued ι E D)
  /-- How often each thread has posted. -/
  posted : ι → Nat

/-- What happens in a step, with the number of the frame it happens in. -/
inductive Label (ι E D : Type)
  | post (m : Post ι E)
  /-- A tick begins, with this many systems. -/
  | tick (frame systems : Nat)
  /-- A system enqueues an event on the dispatcher. -/
  | enqueued (frame : Nat) (d : D)
  /-- A system has run. -/
  | ran (frame : Nat)
  | delivered (frame : Nat) (x : Queued ι E D)
  /-- The dispatcher's `update` has returned. -/
  | updated (frame : Nat)
  /-- `drain_into` takes an event out of the queue. -/
  | took (frame : Nat) (m : Post ι E)
  | silent

open CrossThreadEventQueue in
/-- The steps of the producers and of `Application::tick`. -/
inductive Step [DecidableEq ι] (s : Frames ι E D) : Label ι E D → Frames ι E D → Prop
  | post (m : Post ι E) (hm : m.number = s.posted m.producer) :
      Step s (.post m) { s with
        queue := CrossThreadEventQueue.post s.queue m
        posted := Function.update s.posted m.producer (m.number + 1) }
  | tick (n : Nat) (hpc : s.pc = .idle) :
      Step s (.tick (s.frame + 1) n) { s with frame := s.frame + 1, pc := .systems n }
  | enqueue (n : Nat) (d : D) (hpc : s.pc = .systems (n + 1)) :
      Step s (.enqueued s.frame d) { s with dispatcher := s.dispatcher ++ [.system d] }
  | ran (n : Nat) (hpc : s.pc = .systems (n + 1)) :
      Step s (.ran s.frame) { s with pc := .systems n }
  | update (hpc : s.pc = .systems 0) :
      Step s .silent { s with pc := .updating s.dispatcher, dispatcher := [] }
  | deliver (x : Queued ι E D) (batch : List (Queued ι E D)) (hpc : s.pc = .updating (x :: batch)) :
      Step s (.delivered s.frame x) { s with pc := .updating batch }
  | updated (hpc : s.pc = .updating []) : Step s (.updated s.frame) { s with pc := .onTick }
  | drain (hpc : s.pc = .onTick) : Step s .silent { s with pc := .draining none }
  | tryDequeue (m : Post ι E) (queue : List (Post ι E)) (hpc : s.pc = .draining none)
      (hm : TryDequeue s.queue m queue) :
      Step s (.took s.frame m) { s with queue, pc := .draining (some m) }
  | enqueueDrained (m : Post ι E) (hpc : s.pc = .draining (some m)) :
      Step s .silent { s with dispatcher := s.dispatcher ++ [.drained m], pc := .draining none }
  | drained (hpc : s.pc = .draining none) (hq : s.queue = []) :
      Step s .silent { s with pc := .drained }
  | done (hpc : s.pc = .drained) : Step s .silent { s with pc := .idle }
  | other (d : D) (hpc : ∀ n, s.pc ≠ .systems n) :
      Step s .silent { s with dispatcher := s.dispatcher ++ [.other d] }
  /-- A sink enqueues an event of a type `update` has not come to. -/
  | otherType (d : D) (batch : List (Queued ι E D)) (hpc : s.pc = .updating batch) :
      Step s .silent { s with pc := .updating (batch ++ [.other d]) }

/-- The frame thread and the producers. -/
def frames [DecidableEq ι] : Lts (Frames ι E D) (Label ι E D) where
  init s := s = ⟨0, .idle, [], [], fun _ ↦ 0⟩
  step := Step

/-! ## What a run shows -/

namespace Label

/-- The post of the label. -/
def post? : Label ι E D → Option (Post ι E)
  | post m => some m
  | tick .. | enqueued .. | ran _ | delivered .. | updated _ | took .. | silent => none

/-- An event that is to be delivered, with the frame: an event a drain takes out in the
next one, an event a system enqueues in the same. -/
def due? : Label ι E D → Option (Nat × Queued ι E D)
  | took k m => some (k + 1, .drained m)
  | enqueued k d => some (k, .system d)
  | post _ | tick .. | ran _ | delivered .. | updated _ | silent => none

/-- The delivery of an event that was drained or enqueued by a system, with the frame. -/
def delivery? : Label ι E D → Option (Nat × Queued ι E D)
  | delivered k x => if x.owed then some (k, x) else none
  | post _ | tick .. | enqueued .. | ran _ | updated _ | took .. | silent => none

/-- A system of frame `k` has run. -/
def isRan (k : Nat) : Label ι E D → Bool
  | ran j => j = k
  | post _ | tick .. | enqueued .. | delivered .. | updated _ | took .. | silent => false

end Label

variable {w : List (Label ι E D)}

/-- Everything posted, in order. -/
def posts (w : List (Label ι E D)) : List (Post ι E) := w.filterMap Label.post?

/-- Everything that is to be delivered. -/
def dues (w : List (Label ι E D)) : List (Nat × Queued ι E D) := w.filterMap Label.due?

/-- Everything delivered of that. -/
def deliveries (w : List (Label ι E D)) : List (Nat × Queued ι E D) :=
  w.filterMap Label.delivery?

/-- The posts delivered to the sink. -/
def received (w : List (Label ι E D)) : List (Post ι E) :=
  (deliveries w).filterMap fun x ↦ x.2.post?

/-- The posts taken out of the queue. -/
def taken (w : List (Label ι E D)) : List (Post ι E) := (dues w).filterMap fun x ↦ x.2.post?

/-- Every post is delivered at most once, in its frame and in order. -/
structure Delivers [DecidableEq ι] (w : List (Label ι E D)) : Prop where
  once : (received w).Nodup
  /-- Of each producer the sink has received the first posts, in the order posted. -/
  inOrder : ∀ p, (received w).filter (·.producer = p) <+: (posts w).filter (·.producer = p)
  /-- Deliveries are those that are due, in the frame they are due in. -/
  due : deliveries w <+: dues w
  /-- When the `update` of a frame has returned nothing due in it is missing. -/
  complete : ∀ k, .updated k ∈ w →
    (deliveries w).filter (·.1 = k) = (dues w).filter (·.1 = k)
  /-- Every system of a frame has run before anything is delivered in it. -/
  afterSystems : ∀ u v k x, w = u ++ .delivered k x :: v →
    (∃ n, .tick k n ∈ u ∧ u.countP (Label.isRan k) = n) ∧ v.countP (Label.isRan k) = 0

/-! ## What is pending

What is due and not yet delivered is in the dispatcher or on its way there. -/

namespace Frames

/-- The events that are owed, with the frame they are owed in. -/
def owed (k : Nat) (l : List (Queued ι E D)) : List (Nat × Queued ι E D) :=
  (l.filter Queued.owed).map fun x ↦ (k, x)

theorem owed_append (k : Nat) (l l' : List (Queued ι E D)) :
    owed k (l ++ l') = owed k l ++ owed k l' := by
  rw [owed, List.filter_append, List.map_append, owed, owed]

theorem mem_owed {k : Nat} {l : List (Queued ι E D)} {x : Nat × Queued ι E D}
    (h : x ∈ owed k l) : x.1 = k := by
  obtain ⟨y, -, rfl⟩ := List.mem_map.mp h
  rfl

/-- What is still to be delivered. -/
def pending (s : Frames ι E D) : List (Nat × Queued ι E D) :=
  match s.pc with
  | .systems _ => owed s.frame s.dispatcher
  | .updating batch => owed s.frame batch ++ owed (s.frame + 1) s.dispatcher
  | .draining (some m) => owed (s.frame + 1) s.dispatcher ++ [(s.frame + 1, .drained m)]
  | .idle | .onTick | .draining none | .drained => owed (s.frame + 1) s.dispatcher

/-- How far the frame thread is in a frame: the systems, the dispatcher, the rest. -/
def phase : Pc ι E D → Nat
  | .systems _ => 0
  | .updating _ => 1
  | .idle | .onTick | .draining _ | .drained => 2

/-- The frame thread has come to phase `p` of frame `k`. -/
def Past (k p : Nat) (s : Frames ι E D) : Prop := k < s.frame ∨ k = s.frame ∧ p ≤ phase s.pc

/-- Nothing is pending in a frame whose `update` has returned. -/
theorem not_past_of_mem_pending {s : Frames ι E D} {x : Nat × Queued ι E D}
    (h : x ∈ s.pending) : ¬ Past x.1 2 s := by
  obtain ⟨frame, pc, queue, dispatcher, posted⟩ := s
  unfold pending at h
  unfold Past phase
  cases pc with
  | systems n => have := mem_owed h; simp only at *; omega
  | updating batch =>
      rcases List.mem_append.mp h with h | h
      · have := mem_owed h; simp only at *; omega
      · have := mem_owed h; simp only at *; omega
  | draining m =>
      cases m with
      | none => have := mem_owed h; simp only at *; omega
      | some m =>
          rcases List.mem_append.mp h with h | h
          · have := mem_owed h; simp only at *; omega
          · obtain rfl := List.mem_singleton.mp h; simp only at *; omega
  | idle | onTick | drained => have := mem_owed h; simp only at *; omega

end Frames

section Steps

open Frames

variable [DecidableEq ι] {s s' : Frames ι E D} {ℓ : Label ι E D} {p : ι}

/-- A step passes on what is due. -/
theorem Step.pending (h : Step s ℓ s') :
    s.pending ++ ℓ.due?.toList = ℓ.delivery?.toList ++ s'.pending := by
  obtain ⟨frame, pc, queue, dispatcher, posted⟩ := s
  cases h with
  | post m hm => exact List.append_nil _
  | tick n hpc => cases hpc; exact List.append_nil _
  | enqueue n d hpc =>
      cases hpc
      exact (owed_append frame dispatcher [.system d]).symm
  | ran n hpc => cases hpc; exact List.append_nil _
  | update hpc => cases hpc; rfl
  | deliver x batch hpc =>
      cases hpc
      show _ ++ [] = (if x.owed then some (frame, x) else none).toList ++ _
      rw [List.append_nil]
      cases hx : x.owed with
      | true => simp [Frames.pending, owed, hx]
      | false => simp [Frames.pending, owed, hx]
  | updated hpc => cases hpc; exact List.append_nil _
  | drain hpc => cases hpc; exact List.append_nil _
  | tryDequeue m queue hpc hm => cases hpc; rfl
  | enqueueDrained m hpc =>
      cases hpc
      show owed (frame + 1) dispatcher ++ owed (frame + 1) [.drained m] ++ [] =
        owed (frame + 1) (dispatcher ++ [.drained m])
      rw [owed_append, List.append_nil]
  | drained hpc hq => cases hpc; exact List.append_nil _
  | done hpc => cases hpc; exact List.append_nil _
  | other d hpc =>
      have hd : ∀ k, owed k (dispatcher ++ [.other d]) = owed k dispatcher := by
        intro k
        rw [owed_append]
        exact List.append_nil _
      cases pc with
      | systems n => exact absurd rfl (hpc n)
      | draining m => cases m <;> simp [Frames.pending, hd, Label.due?, Label.delivery?]
      | idle | updating _ | onTick | drained =>
          simp [Frames.pending, hd, Label.due?, Label.delivery?]
  | otherType d batch hpc =>
      cases hpc
      show owed frame batch ++ owed (frame + 1) dispatcher ++ [] =
        owed frame (batch ++ [.other d]) ++ owed (frame + 1) dispatcher
      rw [owed_append, List.append_nil]
      exact congrArg (· ++ _) (List.append_nil _).symm

/-- A list of one element, filtered. -/
private theorem toList_filter (m : Post ι E) (p : ι) :
    ((some m).filter (·.producer = p)).toList = [m].filter (·.producer = p) := by
  by_cases hp : m.producer = p
  · simp [hp]
  · simp [hp]

/-- A step passes on the posts of each producer. -/
theorem Step.queue (h : Step s ℓ s') (p : ι) :
    s.queue.filter (·.producer = p) ++ (ℓ.post?.filter (·.producer = p)).toList =
      ((ℓ.due?.bind fun x ↦ x.2.post?).filter (·.producer = p)).toList ++
        s'.queue.filter (·.producer = p) := by
  cases h with
  | post m hm =>
      show _ = (s.queue ++ [m]).filter _
      rw [List.filter_append, ← toList_filter]
      rfl
  | tryDequeue m queue hpc hm =>
      rw [hm.filter p, ← toList_filter]
      exact List.append_nil _
  | _ => exact List.append_nil _

/-- A step goes on in the frame or to the next. -/
theorem Step.progress (h : Step s ℓ s') : Past s.frame (phase s.pc) s' := by
  cases h with
  | tick n hpc => exact .inl (Nat.lt_succ_self _)
  | post _ _ | enqueue _ _ _ | other _ _ => exact .inr ⟨rfl, Nat.le_refl _⟩
  | ran _ hpc | update hpc => exact .inr ⟨rfl, by rw [hpc]; exact Nat.zero_le _⟩
  | deliver _ _ hpc | otherType _ _ hpc => exact .inr ⟨rfl, by rw [hpc]; exact Nat.le_refl 1⟩
  | updated hpc => exact .inr ⟨rfl, by rw [hpc]; exact Nat.le_succ 1⟩
  | drain hpc | tryDequeue _ _ hpc _ | enqueueDrained _ hpc | drained hpc _ | done hpc =>
      exact .inr ⟨rfl, by rw [hpc]; exact Nat.le_refl 2⟩

theorem Step.past {k p : Nat} (h : Step s ℓ s') (hs : Past k p s) : Past k p s' := by
  have hprogress := h.progress
  unfold Past at *
  omega

/-- A system runs in the frame it is in, before that is past. -/
theorem Step.not_isRan {k : Nat} (h : Step s ℓ s') (hs : Past k 1 s) : ℓ.isRan k = false := by
  cases h with
  | ran n hpc =>
      unfold Past at hs
      rw [hpc] at hs
      exact decide_eq_false (by simp only [phase] at hs; omega)
  | _ => rfl

end Steps

/-! ## Runs -/

section Runs

open Frames

variable [DecidableEq ι] {s s' : Frames ι E D} {p : ι}

/-- The posts are different, as each producer counts its own. -/
theorem posts_nodup (h : frames.Run (⟨0, .idle, [], [], fun _ ↦ 0⟩ : Frames ι E D) w s) :
    (posts w).Nodup := by
  have hcount : (posts w).Nodup ∧ ∀ m ∈ posts w, m.number < s.posted m.producer := by
    refine h.history (P := fun w s ↦ (posts w).Nodup ∧
      ∀ m ∈ posts w, m.number < s.posted m.producer) ⟨List.nodup_nil, nofun⟩ ?_
    intro w s ℓ s' _ ⟨hnodup, hlt⟩ hstep
    cases hstep with
    | post m hm =>
        have hposts : posts (w ++ [.post m]) = posts w ++ [m] := List.filterMap_append
        have hnew : m ∉ posts w := fun hmem ↦ Nat.lt_irrefl _ (hm ▸ hlt m hmem)
        rw [hposts]
        refine ⟨List.nodup_append.mpr ⟨hnodup, List.nodup_singleton m, ?_⟩, fun x hx ↦ ?_⟩
        · rintro x hx y hy rfl
          exact hnew (List.mem_singleton.mp hy ▸ hx)
        · change x.number < Function.update s.posted m.producer (m.number + 1) x.producer
          rcases List.mem_append.mp hx with hx | hx
          · by_cases hp : x.producer = m.producer
            · have hx := hlt x hx
              rw [hp, ← hm] at hx
              rw [hp, Function.update_self]
              exact Nat.lt_succ_of_lt hx
            · rw [Function.update_of_ne hp]
              exact hlt x hx
          · rw [List.mem_singleton.mp hx, Function.update_self]
            exact Nat.lt_succ_self _
    | _ =>
        rw [posts, List.filterMap_append]
        refine ⟨?_, ?_⟩
        · exact (List.append_nil (posts w)).symm ▸ hnodup
        · exact (List.append_nil (posts w)).symm ▸ hlt
  exact hcount.1

/-- What has been delivered and what is pending is what was due. -/
theorem dues_eq (h : frames.Run (⟨0, .idle, [], [], fun _ ↦ 0⟩ : Frames ι E D) w s) :
    dues w = deliveries w ++ s.pending :=
  Lts.Run.conserves Frames.pending Step.pending h

/-- Of each producer, what was taken out of the queue and what is in it was posted. -/
theorem posts_eq (h : frames.Run (⟨0, .idle, [], [], fun _ ↦ 0⟩ : Frames ι E D) w s) (p : ι) :
    (posts w).filter (·.producer = p) =
      (taken w).filter (·.producer = p) ++ s.queue.filter (·.producer = p) := by
  have hc := h.conserves (fun s : Frames ι E D ↦ s.queue.filter (·.producer = p))
    (fun hstep ↦ Step.queue hstep p)
  rw [posts, taken, dues, List.filterMap_filterMap, List.filter_filterMap, List.filter_filterMap]
  exact hc

/-- A frame whose `update` has returned is past. -/
theorem past_of_updated {k : Nat} (h : frames.Run s w s') (hk : .updated k ∈ w) : Past k 2 s' := by
  obtain ⟨u, v, rfl⟩ := List.append_of_mem hk
  obtain ⟨t, -, hv⟩ := h.split
  cases hv with
  | cons hstep hv =>
      cases hstep with
      | updated hpc => exact hv.invariant Step.past (.inr ⟨rfl, Nat.le_refl 2⟩)

/-- No system of a frame runs when it has come to the dispatcher. -/
theorem countP_isRan {k : Nat} (h : frames.Run s w s') (hs : Past k 1 s) :
    w.countP (Label.isRan k) = 0 := by
  induction h with
  | nil _ => rfl
  | cons hstep _ ih =>
      rw [List.countP_cons_of_neg, ih (Step.past hstep hs)]
      rw [Step.not_isRan hstep hs]
      exact Bool.false_ne_true

/-- The systems of the frame that have not run, while that matters. -/
def left : Pc ι E D → Option Nat
  | .systems n => some n
  | .updating _ => some 0
  | .idle | .onTick | .draining _ | .drained => none

/-- The systems that have run and those that are left are the systems of the frame. -/
structure Counted (w : List (Label ι E D)) (s : Frames ι E D) : Prop where
  later : ∀ k, s.frame < k → w.countP (Label.isRan k) = 0
  count : ∀ n, left s.pc = some n →
    ∃ m, .tick s.frame m ∈ w ∧ w.countP (Label.isRan s.frame) + n = m

omit [DecidableEq ι] in
/-- A step that neither begins a frame nor ends a system. -/
theorem Counted.frame {ℓ : Label ι E D} (hs : Counted w s) (hframe : s'.frame = s.frame)
    (hleft : ∀ n, left s'.pc = some n → left s.pc = some n) (hran : ∀ k, ℓ.isRan k = false) :
    Counted (w ++ [ℓ]) s' := by
  have hcount : ∀ k, (w ++ [ℓ]).countP (Label.isRan k) = w.countP (Label.isRan k) := by
    intro k
    simp [List.countP_append, hran k]
  refine ⟨fun k hk ↦ ?_, fun n hn ↦ ?_⟩
  · rw [hcount, hs.later k (hframe ▸ hk)]
  · obtain ⟨m, hm, hn⟩ := hs.count n (hleft n hn)
    exact ⟨m, hframe ▸ List.mem_append_left _ hm, by rw [hcount, hframe, hn]⟩

theorem Counted.step {ℓ : Label ι E D} (hs : Counted w s) (h : Step s ℓ s') :
    Counted (w ++ [ℓ]) s' := by
  cases h with
  | tick n hpc =>
      refine ⟨fun k hk ↦ ?_, ?_⟩
      · simpa [List.countP_append, Label.isRan] using hs.later k (Nat.lt_of_succ_lt hk)
      · rintro m ⟨⟩
        refine ⟨n, by simp, ?_⟩
        simpa [List.countP_append, Label.isRan] using hs.later _ (Nat.lt_succ_self _)
  | ran n hpc =>
      refine ⟨fun k hk ↦ ?_, ?_⟩
      · have hk : s.frame < k := hk
        simpa [List.countP_append, Label.isRan, hk.ne] using hs.later k hk
      · rintro m ⟨⟩
        obtain ⟨m, hm, hn⟩ := hs.count (n + 1) (by rw [hpc]; rfl)
        refine ⟨m, List.mem_append_left _ hm, ?_⟩
        simp only [List.countP_append, Label.isRan, List.countP_singleton, decide_true, if_true]
        omega
  | post _ _ | enqueue _ _ _ | other _ _ => exact hs.frame rfl (fun _ hn ↦ hn) fun _ ↦ rfl
  | update hpc | deliver _ _ hpc | otherType _ _ hpc =>
      exact hs.frame rfl (fun n hn ↦ by rw [hpc]; exact hn) fun _ ↦ rfl
  | updated _ | drain _ | tryDequeue _ _ _ _ | enqueueDrained _ _ | drained _ _ | done _ =>
      exact hs.frame rfl nofun fun _ ↦ rfl

theorem counted (h : frames.Run (⟨0, .idle, [], [], fun _ ↦ 0⟩ : Frames ι E D) w s) :
    Counted w s := by
  refine h.history (P := Counted) ⟨fun _ _ ↦ rfl, ?_⟩ fun _ hs hstep ↦ hs.step hstep
  rintro n ⟨⟩

/-- In every run, the posts of any producers are delivered once each, in order and in the
frame after the one that drains them. -/
theorem delivers (h : frames.Run (⟨0, .idle, [], [], fun _ ↦ 0⟩ : Frames ι E D) w s) :
    Delivers w := by
  have hdue : deliveries w <+: dues w := ⟨s.pending, (dues_eq h).symm⟩
  have hinOrder : ∀ p, (received w).filter (·.producer = p) <+:
      (posts w).filter (·.producer = p) := by
    intro p
    have htaken : (taken w).filter (·.producer = p) <+: (posts w).filter (·.producer = p) :=
      ⟨_, (posts_eq h p).symm⟩
    exact ((hdue.filterMap _).filter _).trans htaken
  refine ⟨?_, hinOrder, hdue, fun k hk ↦ ?_, ?_⟩
  · -- a post delivered twice would have been posted twice by its producer
    refine List.nodup_iff_sublist.mpr fun m hm ↦ ?_
    have htwice := (hm.filter (·.producer = m.producer)).trans (hinOrder m.producer).sublist
    simp only [decide_true, List.filter_cons_of_pos, List.filter_nil] at htwice
    exact List.nodup_iff_sublist.mp (posts_nodup h) m (htwice.trans List.filter_sublist)
  · have hnone : s.pending.filter (·.1 = k) = [] := by
      rw [List.filter_eq_nil_iff]
      intro x hx hxk
      exact not_past_of_mem_pending hx (of_decide_eq_true hxk ▸ past_of_updated h hk)
    rw [dues_eq h, List.filter_append, hnone, List.append_nil]
  · rintro u v k x rfl
    obtain ⟨t, hu, hv⟩ := h.split
    cases hv with
    | cons hstep hv =>
        cases hstep with
        | deliver x batch hpc =>
            refine ⟨?_, countP_isRan hv (.inr ⟨rfl, Nat.le_refl 1⟩)⟩
            obtain ⟨n, hn, hcount⟩ := (counted hu).count 0 (by rw [hpc]; rfl)
            exact ⟨n, hn, hcount⟩

/-- One thread posts before the first frame, another while that is being drained. -/
theorem delivers_overlapping : ∃ (w : List (Label Bool Nat Unit)) (s : Frames Bool Nat Unit),
    frames.Run ⟨0, .idle, [], [], fun _ ↦ 0⟩ w s ∧ Delivers w ∧
      received w = [⟨false, 0, 5⟩, ⟨true, 0, 7⟩] := by
  have hrun : frames.Run (⟨0, .idle, [], [], fun _ ↦ 0⟩ : Frames Bool Nat Unit)
      [.post ⟨false, 0, 5⟩, .tick 1 1, .enqueued 1 (), .ran 1, .silent, .delivered 1 (.system ()),
        .updated 1, .silent, .took 1 ⟨false, 0, 5⟩, .post ⟨true, 0, 7⟩, .silent,
        .took 1 ⟨true, 0, 7⟩, .silent, .silent, .silent, .tick 2 0, .silent,
        .delivered 2 (.drained ⟨false, 0, 5⟩), .delivered 2 (.drained ⟨true, 0, 7⟩), .updated 2] _ :=
    .cons (.post _ rfl) <| .cons (.tick 1 rfl) <| .cons (.enqueue 0 () rfl) <|
    .cons (.ran 0 rfl) <| .cons (.update rfl) <| .cons (.deliver _ _ rfl) <|
    .cons (.updated rfl) <| .cons (.drain rfl) <|
    .cons (.tryDequeue _ _ rfl ⟨[], [], rfl, rfl, nofun⟩) <| .cons (.post _ rfl) <|
    .cons (.enqueueDrained _ rfl) <|
    .cons (.tryDequeue _ _ rfl ⟨[], [], rfl, rfl, nofun⟩) <| .cons (.enqueueDrained _ rfl) <|
    .cons (.drained rfl rfl) <| .cons (.done rfl) <| .cons (.tick 0 rfl) <| .cons (.update rfl) <|
    .cons (.deliver _ _ rfl) <| .cons (.deliver _ _ rfl) <| .cons (.updated rfl) <| .nil _
  exact ⟨_, _, hrun, delivers hrun, rfl⟩

end Runs

end Konative.Scheduling
