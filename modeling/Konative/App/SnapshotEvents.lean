import Konative.App.SnapshotWriter

/-!
# The events of the snapshot writers

A writer posts its event after everything else, so the event of a finished writer is
in the queue, in the dispatcher, or delivered.  No step makes or loses one: the
frame thread moves an event along these three places, and only the writer's last
step puts one in.  Two ticks after a writer has finished, its event has been
delivered: the first drains the queue and the second begins with the dispatcher's
`update`.
-/

namespace Konative.App

open Ecs Entt FileSystem

namespace KonativeAndroidApp

variable {F : Type} {o : FloatOps F} {codec : Codec F} {path : String}
  {s s' : KonativeAndroidApp F} {a : Action} {i j : Nat} {w v : Writer F} {word : List Action}

/-- The events posted so far, wherever they are. -/
def mail (s : KonativeAndroidApp F) : List Posted := s.snapshotQueue ++ s.enqueued ++ s.saved

/-- The events are those of the finished writers, one each. -/
structure Ledger (codec : Codec F) (s : KonativeAndroidApp F) : Prop where
  nodup : (s.mail.map Posted.writer).Nodup
  posted : ∀ m ∈ s.mail, ∃ w b, s.writers m.writer = some w ∧ w.pc = .finished b ∧
    m.event = ⟨(w.bytes codec).length, b⟩
  complete : ∀ {i w}, s.writers i = some w → w.pc.Finished → i ∈ s.mail.map Posted.writer
  waiting : s.pc = .dequeuing false → s.snapshotQueue ≠ []

/-- A step that moves events along and finishes no writer. -/
theorem Ledger.frame (hs : Ledger codec s) (hmail : s'.mail.Perm s.mail)
    (hfinished : ∀ {i w}, w.pc.Finished → (s'.writers i = some w ↔ s.writers i = some w))
    (hwaiting : s'.pc = .dequeuing false → s'.snapshotQueue ≠ []) : Ledger codec s' := by
  refine ⟨?_, fun m hm ↦ ?_, fun hi hf ↦ ?_, hwaiting⟩
  · exact (hmail.map _).nodup_iff.mpr hs.nodup
  · obtain ⟨w, b, hw, hpc, he⟩ := hs.posted m (hmail.mem_iff.mp hm)
    refine ⟨w, b, (hfinished ?_).mpr hw, hpc, he⟩
    rw [hpc]
    trivial
  · exact (hmail.map _).mem_iff.mpr (hs.complete ((hfinished hf).mp hi) hf)

/-- A step in which a writer finishes and posts its event. -/
theorem Ledger.post {b : Bool} (hs : Ledger codec s) (hpc : ∀ b, w.pc ≠ .finished b)
    (hi : s.writers i = some w)
    (hmail : s'.mail.Perm (⟨i, (w.bytes codec).length, b⟩ :: s.mail))
    (hwriters : s'.writers = Function.update s.writers i (some { w with pc := .finished b }))
    (hwaiting : s'.pc = .dequeuing false → s'.snapshotQueue ≠ []) : Ledger codec s' := by
  have hnew : i ∉ s.mail.map Posted.writer := by
    intro hm
    obtain ⟨m, hmem, rfl⟩ := List.mem_map.mp hm
    obtain ⟨w', b', hw', hpc', -⟩ := hs.posted m hmem
    obtain rfl := Option.some.inj (hi.symm.trans hw')
    exact hpc b' hpc'
  refine ⟨?_, fun m hm ↦ ?_, fun {j u} hj hu ↦ ?_, hwaiting⟩
  · exact (hmail.map _).nodup_iff.mpr (List.nodup_cons.mpr ⟨hnew, hs.nodup⟩)
  · rw [hwriters]
    rcases List.mem_cons.mp (hmail.mem_iff.mp hm) with rfl | hm
    · exact ⟨_, b, Function.update_self .., rfl, rfl⟩
    · obtain ⟨u, b', hu, hrest⟩ := hs.posted m hm
      have hne : m.writer ≠ i := fun he ↦ hnew (he ▸ List.mem_map_of_mem hm)
      exact ⟨u, b', Lts.update_eq_some_of_ne hne hu, hrest⟩
  · rw [hwriters] at hj
    refine (hmail.map _).mem_iff.mpr (List.mem_cons.mpr ?_)
    rcases Lts.update_eq_some hj with ⟨rfl, -⟩ | ⟨-, hj⟩
    · exact .inl rfl
    · exact .inr (hs.complete hj hu)

/-- Replacing a writer that has not finished by one that has not. -/
private theorem update_eq_some_iff (hi : s.writers i = some w) (hw : ¬ w.pc.Finished)
    (hv : ¬ v.pc.Finished) {u : Writer F} (hu : u.pc.Finished) :
    Function.update s.writers i (some v) j = some u ↔ s.writers j = some u := by
  by_cases hji : j = i
  · subst hji
    rw [Function.update_self, hi]
    constructor
    · rintro ⟨⟩
      exact absurd hu hv
    · rintro ⟨⟩
      exact absurd hu hw
  · rw [Function.update_of_ne hji]

theorem Step.ledger (h : Step o codec path s a s') (hx : Exclusion s) (hs : Ledger codec s) :
    Ledger codec s' := by
  cases h with
  | tick dt reload hpc =>
      refine hs.frame ?_ (fun _ ↦ Iff.rfl) nofun
      show (s.snapshotQueue ++ [] ++ (s.saved ++ s.enqueued)).Perm s.mail
      rw [List.append_nil, mail, List.append_assoc]
      exact List.perm_append_comm.append_left _
  | skip hpc hskip => exact hs.frame (.refl _) (fun _ ↦ Iff.rfl) nofun
  | exchange hpc hdue hfree => exact hs.frame (.refl _) (fun _ ↦ Iff.rfl) nofun
  | spawn hpc =>
      refine hs.frame (.refl _) (fun {j u} hu ↦ ?_) nofun
      -- the new writer has not finished, and its number was free
      show Function.update s.writers s.spawned _ j = some u ↔ _
      by_cases hj : j = s.spawned
      · subst hj
        rw [Function.update_self]
        constructor
        · rintro ⟨⟩
          change (if s.hasConfigDirectory then WriterPc.writing .opening
            else .clearing false).Finished at hu
          split at hu <;> exact hu.elim
        · intro hj
          exact absurd (hx.lt hj) (Nat.lt_irrefl _)
      · rw [Function.update_of_ne hj]
  | tryDequeue hpc =>
      refine hs.frame (.refl _) (fun _ ↦ Iff.rfl) fun hb hnil ↦ ?_
      change TickPc.dequeuing s.snapshotQueue.isEmpty = _ at hb
      change s.snapshotQueue = [] at hnil
      rw [hnil] at hb
      cases hb
  | dequeued b m q₁ q₂ hpc hq =>
      refine hs.frame ?_ (fun _ ↦ Iff.rfl) nofun
      show (q₁ ++ q₂ ++ (s.enqueued ++ [m]) ++ s.saved).Perm s.mail
      have hm : (m :: (q₁ ++ q₂)).Perm (q₁ ++ m :: q₂) := List.perm_middle.symm
      rw [mail, hq]
      refine List.Perm.append_right _ ?_
      refine (List.perm_append_comm.append_left _).trans ?_
      rw [← List.append_assoc]
      refine List.Perm.append_right _ ?_
      exact List.perm_append_comm.trans hm
  | drained hpc => exact hs.frame (.refl _) (fun _ ↦ Iff.rfl) nofun
  | touch x y hpc | windowResized width height hpc =>
      refine hs.frame (.refl _) (fun _ ↦ Iff.rfl) fun hb ↦ ?_
      change s.pc = _ at hb
      rw [hpc] at hb
      cases hb
  | write i w pc pc' fs' ℓ hi hpc hstep =>
      refine hs.frame (.refl _) (fun hu ↦ update_eq_some_iff hi ?_ id hu) hs.waiting
      rw [hpc]
      exact id
  | written i w r hi hpc | clear i w b hi hpc =>
      refine hs.frame (.refl _) (fun hu ↦ update_eq_some_iff hi ?_ id hu) hs.waiting
      rw [hpc]
      exact id
  | post i w b hi hpc =>
      refine hs.post (i := i) (w := w) (b := b) ?_ hi ?_ rfl fun _ ↦ ?_
      · intro b' hb'
        rw [hpc] at hb'
        cases hb'
      · show (s.snapshotQueue ++ [_] ++ s.enqueued ++ s.saved).Perm (_ :: s.mail)
        rw [List.append_assoc, List.append_assoc, mail, List.append_assoc]
        exact List.perm_middle
      · exact List.append_ne_nil_of_right_ne_nil _ (List.cons_ne_nil _ _)
  | elsewhere fs' hpath htemp => exact hs.frame (.refl _) (fun _ ↦ Iff.rfl) hs.waiting

/-! ## The invariant -/

/-- The four parts together, for a process that found `content₀` in the state file. -/
structure Inv (codec : Codec F) (path : String) (content₀ : Option Bytes)
    (s : KonativeAndroidApp F) : Prop where
  exclusion : Exclusion s
  numbered : Numbered s
  durable : Durable codec path content₀ s
  ledger : Ledger codec s

variable {content₀ : Option Bytes}

theorem Step.inv (h : Step o codec path s a s') (hs : Inv codec path content₀ s) :
    Inv codec path content₀ s' :=
  ⟨h.exclusion hs.exclusion, h.numbered hs.exclusion hs.numbered,
    h.durable hs.exclusion hs.durable, h.ledger hs.exclusion hs.ledger⟩

theorem inv_fresh (fs : FileSystem String) (registry : AppRegistry F) (config : AppConfig)
    (hasConfigDirectory : Bool) (follower : Option Entity) (target : Bool) :
    Inv codec path (fs.content path)
      (fresh fs registry config hasConfigDirectory follower target) where
  exclusion := ⟨nofun, nofun, nofun⟩
  numbered := ⟨rfl, nofun, nofun, nofun, fun _ _ _ h ↦ nomatch h⟩
  durable := ⟨nofun, nofun, nofun, .nil, rfl⟩
  ledger := ⟨.nil, nofun, nofun, nofun⟩

theorem inv_of_init (h : (system o codec path).init s) :
    Inv codec path (s.fs.content path) s := by
  obtain ⟨fs, registry, config, hasConfigDirectory, follower, target, rfl⟩ := h
  exact inv_fresh ..

theorem inv_of_run (h : (system o codec path).Run s word s') (hs : Inv codec path content₀ s) :
    Inv codec path content₀ s' := h.invariant Step.inv hs

/-- A writer that has run to completion stays as it is. -/
theorem writer_of_run (h : (system o codec path).Run s word s') (hs : Inv codec path content₀ s)
    (hi : s.writers i = some w) (hf : w.pc.Finished) : s'.writers i = some w := by
  have hkeep := h.rel (I := Inv codec path content₀)
    (R := fun s s' ↦ ∀ i w, s.writers i = some w → w.pc.Finished → s'.writers i = some w)
    Step.inv (fun _ _ _ hi _ ↦ hi) (fun h₁ h₂ i w hi hf ↦ h₂ i w (h₁ i w hi hf) hf)
    (fun {s ℓ s'} hstep hs i w hi hf ↦ ?_) hs
  · exact hkeep i w hi hf
  · obtain ⟨v, hv, -, heq⟩ := Step.writer_forward hstep (hs.exclusion.lt hi) hi
    rw [hv, heq hf]

/-- Renames are never taken back. -/
theorem Step.renamed_suffix (h : Step o codec path s a s') : s.renamed <:+ s'.renamed := by
  cases h with
  | write i w pc pc' fs' ℓ hi hpc hstep =>
      show s.renamed <:+ if ℓ = .renamed then i :: s.renamed else s.renamed
      split
      · exact List.suffix_cons ..
      · exact List.suffix_rfl
  | tick | skip _ _ | exchange _ _ _ | spawn _ | tryDequeue _ | dequeued _ _ _ _ _ _ | drained _
  | touch | windowResized | written _ _ _ _ _ | clear _ _ _ _ _ | post _ _ _ _ _ | elsewhere =>
      exact List.suffix_rfl

theorem renamed_suffix_of_run (h : (system o codec path).Run s word s') :
    s.renamed <:+ s'.renamed :=
  h.rel (I := fun _ ↦ True) (R := fun s s' : KonativeAndroidApp F ↦ s.renamed <:+ s'.renamed)
    (fun _ _ ↦ trivial) (fun _ ↦ List.suffix_rfl)
    (fun {s s' _} (h₁ : s.renamed <:+ s'.renamed) h₂ ↦ h₁.trans h₂)
    (fun hstep _ ↦ Step.renamed_suffix hstep) trivial

/-! ## Delivery -/

/-- The event of `i` is not in the queue of the writers. -/
abbrev NotQueued (i : Nat) (s : KonativeAndroidApp F) : Prop :=
  i ∉ s.snapshotQueue.map Posted.writer

/-- The event of `i` is in neither queue. -/
abbrev Flushed (i : Nat) (s : KonativeAndroidApp F) : Prop :=
  NotQueued i s ∧ i ∉ s.enqueued.map Posted.writer

/-- The drain of the current tick has not missed the event of `i`. -/
def Draining (i : Nat) (s : KonativeAndroidApp F) : Prop :=
  s.pc = .idle ∨ s.pc = .dequeuing true → NotQueued i s

/-- A writer posts nothing after it has finished. -/
theorem Step.notQueued (h : Step o codec path s a s') (hi : s.writers i = some w)
    (hf : w.pc.Finished) (hq : NotQueued i s) : NotQueued i s' := by
  cases h with
  | dequeued b m q₁ q₂ hpc hq' =>
      intro hm
      refine hq ?_
      rw [hq', List.map_append, List.map_cons]
      rw [List.map_append] at hm
      exact (List.Sublist.append_left (List.sublist_cons_self ..) _).subset hm
  | post j v b hj hpc =>
      intro hm
      rw [List.map_append, List.mem_append, List.map_singleton, List.mem_singleton] at hm
      rcases hm with hm | rfl
      · exact hq hm
      · obtain rfl := Option.some.inj (hi.symm.trans hj)
        rw [hpc] at hf
        exact hf
  | tick | skip _ _ | exchange _ _ _ | spawn _ | tryDequeue _ | drained _ | touch | windowResized
  | write _ _ _ _ _ _ _ _ _ | written _ _ _ _ _ | clear _ _ _ _ _ | elsewhere => exact hq

/-- An event that is in neither queue stays out of both. -/
theorem Step.flushed (h : Step o codec path s a s') (hi : s.writers i = some w)
    (hf : w.pc.Finished) (hs : Flushed i s) : Flushed i s' := by
  refine ⟨h.notQueued hi hf hs.1, ?_⟩
  cases h with
  | tick dt reload hpc => exact List.not_mem_nil
  | dequeued b m q₁ q₂ hpc hq =>
      intro hm
      rw [List.map_append, List.mem_append, List.map_singleton, List.mem_singleton] at hm
      rcases hm with hm | rfl
      · exact hs.2 hm
      · refine hs.1 ?_
        rw [hq, List.map_append, List.map_cons]
        exact List.mem_append_right _ List.mem_cons_self
  | skip _ _ | exchange _ _ _ | spawn _ | tryDequeue _ | drained _ | touch | windowResized
  | write _ _ _ _ _ _ _ _ _ | written _ _ _ _ _ | clear _ _ _ _ _ | post _ _ _ _ _
  | elsewhere => exact hs.2

/-- The rest of a tick takes a finished writer's event out of the queue. -/
theorem Step.draining (h : Step o codec path s a s') (hi : s.writers i = some w)
    (hf : w.pc.Finished) (hs : Draining i s) : Draining i s' := by
  have hkeep := fun hq : NotQueued i s ↦ h.notQueued hi hf hq
  cases h with
  | tick | skip _ _ | exchange _ _ _ | spawn _ | dequeued _ _ _ _ _ _ =>
      exact fun hpc ↦ hpc.elim nofun nofun
  | tryDequeue hpc =>
      rintro (hb | hb)
      · cases hb
      · change TickPc.dequeuing s.snapshotQueue.isEmpty = .dequeuing true at hb
        rw [NotQueued, List.isEmpty_iff.mp (TickPc.dequeuing.inj hb)]
        exact List.not_mem_nil
  | drained hpc => exact fun _ ↦ hs (.inr hpc)
  | touch | windowResized => exact hs
  | write _ _ _ _ _ _ _ _ _ | written _ _ _ _ _ | clear _ _ _ _ _ | post _ _ _ _ _ | elsewhere =>
      exact fun hpc ↦ hkeep (hs hpc)

/-- After one tick the drain has not missed the event, after two it is in neither
queue. -/
theorem flushed_of_run (h : (system o codec path).Run s word s') (hs : Inv codec path content₀ s)
    (hi : s.writers i = some w) (hf : w.pc.Finished) :
    (1 ≤ word.count .tick → Draining i s') ∧ (2 ≤ word.count .tick → Flushed i s') := by
  refine h.history (P := fun word t ↦
    (1 ≤ word.count .tick → Draining i t) ∧ (2 ≤ word.count .tick → Flushed i t))
    ⟨fun h ↦ absurd h (by simp), fun h ↦ absurd h (by simp)⟩ ?_
  intro word t a t' hr ih hstep
  have hit := writer_of_run hr hs hi hf
  by_cases ha : a = .tick
  · subst ha
    rw [List.count_append, List.count_singleton_self]
    have hpc : t.pc = .idle := by cases hstep; assumption
    refine ⟨fun _ ↦ ?_, fun h₂ ↦ ?_⟩
    · cases hstep
      exact fun hpc ↦ hpc.elim nofun nofun
    · have hq := ih.1 (by omega) (.inl hpc)
      cases hstep
      exact ⟨hq, List.not_mem_nil⟩
  · rw [List.count_append, List.count_singleton, if_neg (by simpa using ha), Nat.add_zero]
    exact ⟨fun h₁ ↦ Step.draining hstep hit hf (ih.1 h₁),
      fun h₂ ↦ Step.flushed hstep hit hf (ih.2 h₂)⟩

/-- An element of a list is the only one with its key. -/
private theorem filter_eq_singleton {l : List Posted} (hl : (l.map Posted.writer).Nodup)
    {m : Posted} (hm : m ∈ l) : l.filter (fun x ↦ x.writer = m.writer) = [m] := by
  have hall : ∀ x ∈ l.filter (fun x ↦ x.writer = m.writer), x = m := by
    intro x hx
    obtain ⟨hxl, hxm⟩ := List.mem_filter.mp hx
    exact List.inj_on_of_nodup_map hl hxl hm (of_decide_eq_true hxm)
  have hnodup : (l.filter (fun x ↦ x.writer = m.writer)).Nodup := (List.Nodup.of_map _ hl).filter _
  have hmem : m ∈ l.filter (fun x ↦ x.writer = m.writer) :=
    List.mem_filter.mpr ⟨hm, decide_eq_true rfl⟩
  cases hf : l.filter (fun x ↦ x.writer = m.writer) with
  | nil => rw [hf] at hmem; cases hmem
  | cons x xs =>
      rw [hf] at hall hnodup
      obtain rfl := hall x List.mem_cons_self
      cases xs with
      | nil => rfl
      | cons y ys =>
          obtain rfl := hall y (List.mem_cons_of_mem _ List.mem_cons_self)
          exact absurd List.mem_cons_self (List.nodup_cons.mp hnodup).1

/-- Two ticks after a writer has finished, `on_snapshot_saved` has been called with
its event once. -/
theorem saved_of_run (h : (system o codec path).Run s word s') (hs : Inv codec path content₀ s)
    (hi : s.writers i = some w) (hf : w.pc.Finished) (hticks : 2 ≤ word.count .tick) :
    s'.saved.filter (fun m ↦ m.writer = i) =
      [⟨i, (w.bytes codec).length, decide (i ∈ s.renamed)⟩] := by
  have hs' := inv_of_run h hs
  have hi' := writer_of_run h hs hi hf
  obtain ⟨hqueue, henqueued⟩ := (flushed_of_run h hs hi hf).2 hticks
  obtain ⟨m, hm, rfl⟩ := List.mem_map.mp (hs'.ledger.complete hi' hf)
  have hsaved : m ∈ s'.saved := by
    rw [mail, List.mem_append, List.mem_append] at hm
    rcases hm with (hm | hm) | hm
    · exact absurd (List.mem_map_of_mem hm) hqueue
    · exact absurd (List.mem_map_of_mem hm) henqueued
    · exact hm
  have hnodup : (s'.saved.map Posted.writer).Nodup :=
    (((List.sublist_append_right _ _).map _).nodup hs'.ledger.nodup)
  rw [filter_eq_singleton hnodup hsaved]
  -- the event says what the writer's last program counter says
  obtain ⟨w', b, hw', hpc, hevent⟩ := hs'.ledger.posted m hm
  obtain rfl := Option.some.inj (hi'.symm.trans hw')
  have hiff : m.writer ∈ s.renamed ↔ b = true := by
    have hmem := hs.durable.mem hi
    rw [hpc] at hmem
    exact hmem
  have hb : decide (m.writer ∈ s.renamed) = b := by simp [hiff]
  rw [hb, ← hevent]

/-! ## Ticks go on -/

/-- After the drain of a tick that no post interferes with. -/
def drain (s : KonativeAndroidApp F) : KonativeAndroidApp F :=
  { s with snapshotQueue := [], enqueued := s.enqueued ++ s.snapshotQueue, pc := .idle }

/-- The drain ends, however many events there are. -/
theorem exists_run_drain (o : FloatOps F) (codec : Codec F) (path : String)
    (hpc : s.pc = .draining) :
    ∃ word, (system o codec path).Run s word s.drain ∧ word.count .tick = 0 := by
  generalize hq : s.snapshotQueue = q
  induction q generalizing s with
  | nil =>
      have hlast : TickPc.dequeuing s.snapshotQueue.isEmpty = .dequeuing true := by rw [hq]; rfl
      have hdrain : s.drain = { s with pc := .idle } := by
        rw [drain, hq, List.append_nil, ← hq]
      rw [hdrain]
      exact ⟨_, .cons (Step.tryDequeue s hpc) (.single (Step.drained _ hlast)), rfl⟩
  | cons m q ih =>
      let t : KonativeAndroidApp F :=
        { s with snapshotQueue := q, enqueued := s.enqueued ++ [m], pc := .draining }
      have hdrain : s.drain = t.drain := by
        rw [drain, drain, hq, List.append_cons]
      obtain ⟨word, hr, hcount⟩ := ih (s := t) rfl rfl
      rw [hdrain]
      exact ⟨_, .cons (Step.tryDequeue s hpc) (.cons (Step.dequeued _ _ m [] q rfl hq) hr), hcount⟩

/-- The frame thread alone finishes the tick it is in. -/
theorem exists_run_idle (o : FloatOps F) (path : String) (hs : Ledger codec s) :
    ∃ word s', (system o codec path).Run s word s' ∧ s'.pc = .idle ∧ word.count .tick = 0 := by
  have hfrom : ∀ {t}, Step o codec path s .onTick t → t.pc = .draining →
      ∃ word s', (system o codec path).Run s word s' ∧ s'.pc = .idle ∧ word.count .tick = 0 := by
    intro t hstep hpc
    obtain ⟨word, hr, hcount⟩ := exists_run_drain o codec path hpc
    exact ⟨_, _, .cons hstep hr, rfl, hcount⟩
  cases hpc : s.pc with
  | idle => exact ⟨[], s, .nil s, hpc, rfl⟩
  | checking =>
      by_cases hskip : s.due = false ∨ s.snapshotInFlight = true
      · exact hfrom (.skip s hpc hskip) rfl
      · rw [not_or, Bool.not_eq_false, Bool.not_eq_true] at hskip
        obtain ⟨word, hr, hcount⟩ := exists_run_drain o codec path
          (s := spawn { s with snapshotInFlight := true, pc := .capturing }) rfl
        exact ⟨_, _, .cons (Step.exchange s hpc hskip.1 hskip.2) (.cons (Step.spawn _ rfl) hr),
          rfl, hcount⟩
  | capturing => exact hfrom (.spawn s hpc) rfl
  | draining =>
      obtain ⟨word, hr, hcount⟩ := exists_run_drain o codec path hpc
      exact ⟨_, _, hr, rfl, hcount⟩
  | dequeuing b =>
      cases b with
      | true => exact ⟨_, _, .single (Step.drained s hpc), rfl, rfl⟩
      | false =>
          obtain ⟨m, q, hq⟩ := List.exists_cons_of_ne_nil (hs.waiting hpc)
          exact hfrom (.dequeued s false m [] q hpc hq) rfl

/-- From every state the frame thread can go on for any number of ticks. -/
theorem exists_run_ticks (o : FloatOps F) (hs : Inv codec path content₀ s) (n : Nat) :
    ∃ word s', (system o codec path).Run s word s' ∧ word.count .tick = n := by
  induction n with
  | zero => exact ⟨[], s, .nil s, rfl⟩
  | succ n ih =>
      obtain ⟨word, t, hr, hcount⟩ := ih
      obtain ⟨word', t', hr', hidle, hcount'⟩ := exists_run_idle o path (inv_of_run hr hs).ledger
      refine ⟨_, _, (hr.append hr').snoc (Step.tick t' (o.ofInt 0) none hidle), ?_⟩
      rw [List.count_append, List.count_append, hcount, hcount', List.count_singleton_self]

/-- A writer's call may run for as long as it likes before anything else steps. -/
theorem exists_run_write {pc pc' : WritePc} {fs fs' : FileSystem String}
    {labels : List WriteLabel} (o : FloatOps F)
    (hr : (writeSystem path (w.call codec)).Run (fs, pc) labels (fs', pc')) (hfs : s.fs = fs)
    (hi : s.writers i = some w) (hpc : w.pc = .writing pc) :
    ∃ word s', (system o codec path).Run s word s' ∧
      s'.writers i = some { w with pc := .writing pc' } := by
  generalize hc : w.call codec = c at hr
  generalize hx : (fs, pc) = x at hr
  generalize hy : (fs', pc') = y at hr
  induction hr generalizing fs pc s w with
  | nil _ =>
      obtain ⟨-, rfl⟩ := Prod.mk.inj (hx.trans hy.symm)
      exact ⟨[], s, .nil s, by rw [hi, ← hpc]⟩
  | @cons x x' y ℓ labels hstep _ ih =>
      subst hx hfs hc
      obtain ⟨word, s', hr', hw⟩ := ih (w := { w with pc := .writing x'.2 })
        (s := { s with
          fs := x'.1
          writers := Function.update s.writers i (some { w with pc := .writing x'.2 })
          renamed := if ℓ = .renamed then i :: s.renamed else s.renamed })
        rfl (Function.update_self ..) rfl rfl rfl hy
      exact ⟨_, s', .cons (Step.write s i w pc x'.2 x'.1 ℓ hi hpc hstep) hr', hw⟩

/-! ## The protocol -/

/-- In every run of a process: at most one writer is between its spawn and its
clearing of the flag; renames happen in the order of the spawns and are never undone,
and the state file is the image of the last one; each writer that has run to
completion has its one event, with the size of its snapshot and whether it renamed,
delivered within two more ticks, which can always be run, and nothing else is ever
delivered.  As long as the tick count has not wrapped around, no two writers share a
temporary file's name and the tick counts of the renames increase. -/
theorem snapshot_writer_protocol (o : FloatOps F) (codec : Codec F) (path : String)
    (s₀ s : KonativeAndroidApp F) (word : List Action) (h₀ : (system o codec path).init s₀)
    (h : (system o codec path).Run s₀ word s) :
    (∀ i j w v, s.writers i = some w → s.writers j = some v → w.pc.Active → v.pc.Active → i = j) ∧
      s.renamed.Pairwise (· > ·) ∧
      s.fs.content path = (s.latest.map (stateImage codec)).or (s₀.fs.content path) ∧
      (∀ word' s', (system o codec path).Run s word' s' → s.renamed <:+ s'.renamed) ∧
      (∀ i w, s.writers i = some w → w.pc.Finished →
        ∀ word' s', (system o codec path).Run s word' s' → 2 ≤ word'.count .tick →
          s'.saved.filter (fun m ↦ m.writer = i) =
            [⟨i, (w.bytes codec).length, decide (i ∈ s.renamed)⟩]) ∧
      (∀ n, ∃ word' s', (system o codec path).Run s word' s' ∧ word'.count .tick = n) ∧
      (∀ m ∈ s.saved, ∃ w, s.writers m.writer = some w ∧ w.pc.Finished) ∧
      (s.saved.map Posted.writer).Nodup ∧
      (s.ticks < UInt64.size →
        (∀ i j w v, s.writers i = some w → s.writers j = some v → i ≠ j →
          tempPath path w.unique.toNat ≠ tempPath path v.unique.toNat) ∧
        s.renamed.Pairwise fun i j ↦ ∀ w v, s.writers i = some w → s.writers j = some v →
          v.unique < w.unique) := by
  have hs := inv_of_run h (inv_of_init h₀)
  -- the tick of a spawn, read back from the writer's number
  have hunique : s.ticks < UInt64.size → ∀ {i w}, s.writers i = some w →
      w.unique.toNat = w.atTick := by
    intro hlt i w hi
    rw [hs.numbered.unique hi]
    exact UInt64.toNat_ofNat_of_lt' (Nat.lt_of_le_of_lt (hs.numbered.le hi) hlt)
  refine ⟨fun i j w v ↦ hs.exclusion.eq_of_active, hs.durable.sorted, hs.durable.content,
    fun word' s' ↦ renamed_suffix_of_run, fun i w hi hf word' s' hr ↦ saved_of_run hr hs hi hf,
    exists_run_ticks o hs, fun m hm ↦ ?_, ?_, fun hlt ↦ ⟨?_, ?_⟩⟩
  · obtain ⟨w, b, hw, hpc, -⟩ := hs.ledger.posted m (List.mem_append_right _ hm)
    exact ⟨w, hw, by rw [hpc]; trivial⟩
  · exact ((List.sublist_append_right _ _).map _).nodup hs.ledger.nodup
  · intro i j w v hi hj hne he
    have heq := tempPath_injective path he
    rw [hunique hlt hi, hunique hlt hj] at heq
    rcases Nat.lt_or_gt_of_ne hne with hij | hij
    · exact absurd heq (Nat.ne_of_lt (hs.numbered.mono hi hj hij))
    · exact absurd heq.symm (Nat.ne_of_lt (hs.numbered.mono hj hi hij))
  · refine hs.durable.sorted.imp fun {i j} hij w v hi hj ↦ ?_
    rw [UInt64.lt_iff_toNat_lt, hunique hlt hi, hunique hlt hj]
    exact hs.numbered.mono hj hi hij

/-! ## When the tick count wraps around

An undisturbed process with the shortest interval, whose writers cannot open their
temporary files and are done before the tick is. -/

/-- Between two ticks, with nothing under way. -/
structure Quiet (s : KonativeAndroidApp F) : Prop where
  idle : s.pc = .idle
  free : s.snapshotInFlight = false
  queue : s.snapshotQueue = []
  interval : s.config.snapshotIntervalTicks = minSnapshotIntervalTicks
  directory : s.hasConfigDirectory = true

namespace Quiet

/-- A poll that finds nothing keeps the interval. -/
theorem interval_beginTick (hs : Quiet s) (o : FloatOps F) (dt : F) :
    (s.beginTick o dt none).config.snapshotIntervalTicks = minSnapshotIntervalTicks := by
  show AppConfig.snapshotIntervalTicks (if _ then s.config else s.config) = _
  rw [ite_self, hs.interval]

/-- Whether the next tick is one of a snapshot. -/
theorem due_beginTick (hs : Quiet s) (o : FloatOps F) (dt : F) :
    (s.beginTick o dt none).due = decide ((s.tickCount + 1) % 60 = 0) := by
  rw [due, hs.interval_beginTick]
  rfl

/-- A tick up to the spawn of its writer. -/
theorem exists_run_spawn (hs : Quiet s) (o : FloatOps F) (codec : Codec F) (path : String)
    (h : (s.tickCount + 1) % 60 = 0) :
    ∃ word u w, (system o codec path).Run s word u ∧ u.pc = .draining ∧
      u.config.snapshotIntervalTicks = minSnapshotIntervalTicks ∧ u.hasConfigDirectory = true ∧
      u.tickCount = s.tickCount + 1 ∧ u.spawned = s.spawned + 1 ∧
      u.writers s.spawned = some w ∧ w.pc = .writing .opening ∧ w.unique = s.tickCount + 1 := by
  let t := s.beginTick o (o.ofInt 0) none
  let u : KonativeAndroidApp F := spawn { t with snapshotInFlight := true, pc := .capturing }
  have hw : u.writers s.spawned =
      some ⟨t.registry, s.tickCount + 1, .writing .opening, s.ticks + 1⟩ := by
    refine (Function.update_self ..).trans ?_
    show some (Writer.mk _ _ (if s.hasConfigDirectory then _ else _) _) = _
    rw [if_pos hs.directory]
    rfl
  have hdue : t.due = true := by
    rw [hs.due_beginTick, decide_eq_true h]
  exact ⟨_, u, _, .cons (Step.tick s _ none hs.idle) <| .cons (Step.exchange t rfl hdue hs.free) <|
    .single (Step.spawn _ rfl), rfl, hs.interval_beginTick o _, hs.directory, rfl, rfl, hw, rfl,
    rfl⟩

/-- One tick, with the whole life of the writer it spawns if one is due. -/
theorem exists_run (hs : Quiet s) (o : FloatOps F) (codec : Codec F) (path : String) :
    ∃ word s', (system o codec path).Run s word s' ∧ Quiet s' ∧
      s'.tickCount = s.tickCount + 1 ∧ s.spawned ≤ s'.spawned ∧
      ((s.tickCount + 1) % 60 = 0 → s.spawned < s'.spawned ∧
        ∃ w, s'.writers s.spawned = some w ∧ w.unique = s.tickCount + 1 ∧ w.pc.Finished) := by
  by_cases h : (s.tickCount + 1) % 60 = 0
  · obtain ⟨word, u, w, hr, hpc, hconfig, hdir, hcount, hspawned, hw, hopening, hunique⟩ :=
      hs.exists_run_spawn o codec path h
    -- the writer opens in vain, returns, clears and posts
    have hself : ∀ {f : Nat → Option (Writer F)} {pc : WriterPc},
        Function.update f s.spawned (some { w with pc }) s.spawned = some { w with pc } :=
      Function.update_self ..
    have hlife : ∃ word' u', (system o codec path).Run u word' u' ∧ u'.pc = u.pc ∧
        u'.snapshotInFlight = false ∧ u'.config = u.config ∧
        u'.hasConfigDirectory = u.hasConfigDirectory ∧ u'.tickCount = u.tickCount ∧
        u'.spawned = u.spawned ∧ u'.writers s.spawned = some { w with pc := .finished false } :=
      ⟨_, _, .cons (Step.write u _ w .opening _ _ .internal hw hopening (.openFailed _)) <|
        .cons (Step.written _ _ _ (.error .openFailed) hself rfl) <|
        .cons (Step.clear _ _ _ false hself rfl) <|
        .single (Step.post _ _ _ false hself rfl), rfl, rfl, rfl, rfl, rfl, rfl, hself⟩
    obtain ⟨word', u', hr', hpc', hfree, hc, hd, hcount', hspawned', hwriter⟩ := hlife
    obtain ⟨word'', hr'', -⟩ := exists_run_drain o codec path (hpc'.trans hpc)
    refine ⟨_, _, (hr.append hr').append hr'', ⟨rfl, hfree, rfl, ?_, hd.trans hdir⟩,
      hcount'.trans hcount, ?_, fun _ ↦ ⟨?_, _, hwriter, hunique, trivial⟩⟩
    · show u'.config.snapshotIntervalTicks = _
      rw [hc, hconfig]
    · show s.spawned ≤ u'.spawned
      omega
    · show s.spawned < u'.spawned
      omega
  · let t := s.beginTick o (o.ofInt 0) none
    have hskip : Step o codec path t .onTick { t with pc := .draining } :=
      .skip t rfl (.inl (by rw [hs.due_beginTick, decide_eq_false h]))
    obtain ⟨word, hr, -⟩ := exists_run_drain o codec path (s := { t with pc := .draining }) rfl
    exact ⟨_, _, .cons (Step.tick s _ none hs.idle) (.cons hskip hr),
      ⟨rfl, hs.free, rfl, hs.interval_beginTick o _, hs.directory⟩, rfl, Nat.le_refl _,
      fun h' ↦ absurd h' h⟩

/-- Any number of such ticks. -/
theorem exists_runs (hs : Quiet s) (o : FloatOps F) (codec : Codec F) (path : String) (n : Nat) :
    ∃ word s', (system o codec path).Run s word s' ∧ Quiet s' ∧
      s'.tickCount = s.tickCount + UInt64.ofNat n ∧ s.spawned ≤ s'.spawned := by
  induction n with
  | zero => exact ⟨[], s, .nil s, hs, (UInt64.add_zero _).symm, Nat.le_refl _⟩
  | succ n ih =>
      obtain ⟨word, t, hr, ht, hcount, hle⟩ := ih
      obtain ⟨word', t', hr', ht', hcount', hle', -⟩ := ht.exists_run o codec path
      refine ⟨_, t', hr.append hr', ht', ?_, hle.trans hle'⟩
      rw [hcount', hcount, UInt64.ofNat_add, UInt64.add_assoc]
      rfl

end Quiet

/-- A process just started, with the shortest interval. -/
theorem quiet_fresh (fs : FileSystem String) (registry : AppRegistry F)
    (follower : Option Entity) (target : Bool) :
    Quiet (fresh fs registry (AppConfig.clampToValid ⟨120, 60⟩) true follower target) :=
  have hinterval : stdMax 60 minSnapshotIntervalTicks = minSnapshotIntervalTicks := by decide
  ⟨rfl, rfl, rfl, hinterval, rfl⟩

/-- Such a process on an empty file system. -/
def quietStart : KonativeAndroidApp UInt32 :=
  fresh .empty .empty (AppConfig.clampToValid ⟨120, 60⟩) true none false

theorem quiet_quietStart : Quiet quietStart := quiet_fresh ..

/-- The sixtieth tick of `quietStart` spawns a writer, which finishes. -/
private theorem exists_run_sixty : ∃ word s', (system .whole Codec.u32 "state.bin").Run quietStart
    word s' ∧ Quiet s' ∧ s'.tickCount = 60 ∧ ∃ i < s'.spawned, ∃ w, s'.writers i = some w ∧
      w.unique = 60 ∧ w.pc.Finished := by
  obtain ⟨word, t, hr, ht, hcount, -⟩ :=
    quiet_quietStart.exists_runs .whole Codec.u32 "state.bin" 59
  obtain ⟨word', t', hr', ht', hcount', -, hdue⟩ :=
    ht.exists_run .whole Codec.u32 "state.bin"
  have hsixty : t.tickCount + 1 = 60 := by rw [hcount]; decide
  rw [hsixty] at hcount' hdue
  obtain ⟨hlt, w, hw⟩ := hdue (by decide)
  exact ⟨_, t', hr.append hr', ht', hcount', t.spawned, hlt, w, hw⟩

/-- A writer that has finished is heard of: after sixty ticks with the shortest
interval there is one, and two ticks later its event has been delivered once. -/
theorem snapshot_writer_protocol_sixty : ∃ (s s' : KonativeAndroidApp UInt32) (i : Nat)
    (w : Writer UInt32) (word' : List Action), s.writers i = some w ∧ w.pc.Finished ∧
      (system .whole Codec.u32 "state.bin").Run s word' s' ∧
      s'.saved.filter (fun m ↦ m.writer = i) =
        [⟨i, (w.bytes Codec.u32).length, decide (i ∈ s.renamed)⟩] := by
  obtain ⟨word, s, hr, -, -, i, -, w, hw, -, hf⟩ := exists_run_sixty
  obtain ⟨-, -, -, -, hsaved, hticks, -⟩ := snapshot_writer_protocol .whole Codec.u32 "state.bin"
    quietStart s word ⟨_, _, _, _, _, _, rfl⟩ hr
  obtain ⟨word', s', hr', hcount⟩ := hticks 2
  exact ⟨s, s', i, w, word', hw, hf, hr', hsaved i w hw hf word' s' hr' (Nat.le_of_eq hcount.symm)⟩

/-- After `2 ^ 64` more ticks a second writer has the first one's temporary file. -/
theorem temp_name_reused : ¬ ∀ (s₀ s : KonativeAndroidApp UInt32) (word : List Action),
    (system .whole Codec.u32 "state.bin").init s₀ →
    (system .whole Codec.u32 "state.bin").Run s₀ word s →
    ∀ i j w v, s.writers i = some w → s.writers j = some v → i ≠ j →
      tempPath "state.bin" w.unique.toNat ≠ tempPath "state.bin" v.unique.toNat := by
  intro h
  obtain ⟨word, s, hr, hs, hcount, i, hi, w, hw, hu, hf⟩ := exists_run_sixty
  obtain ⟨word₁, s₁, hr₁, hs₁, hcount₁, hle⟩ :=
    hs.exists_runs .whole Codec.u32 "state.bin" (UInt64.size - 1)
  obtain ⟨word₂, s₂, hr₂, hs₂, hcount₂, -, hdue⟩ :=
    hs₁.exists_run .whole Codec.u32 "state.bin"
  have hsixty : s₁.tickCount + 1 = 60 := by rw [hcount₁, hcount]; decide
  rw [hsixty] at hdue
  obtain ⟨hlt, v, hv, hu', -⟩ := hdue (by decide)
  have hinit : (system .whole Codec.u32 "state.bin").init quietStart := ⟨_, _, _, _, _, _, rfl⟩
  have hw₂ := writer_of_run (hr₁.append hr₂) (inv_of_run hr (inv_of_init hinit)) hw hf
  refine h quietStart s₂ _ hinit (hr.append (hr₁.append hr₂)) i s₁.spawned w v hw₂ hv ?_ ?_
  · exact Nat.ne_of_lt (Nat.lt_of_lt_of_le hi hle)
  · rw [hu, hu']

end KonativeAndroidApp

end Konative.App
