import Mathlib.Data.List.Nodup
import Mathlib.Logic.Function.Basic

/-!
# Custody of resources

Holders take resources in, pass them on and let them out, in one of several ways.  A
custody is sound when every resource that was taken in is at exactly one place: with one
holder, or out in one way and once.  Each operation keeps this, as long as nothing is taken
in twice and no holder that has something is given something else.
-/

namespace Konative

universe u v w

/-- What each holder has, what was ever taken in, and what went out in each way. -/
structure Custody (ι : Type u) (ω : Type v) (ρ : Type w) where
  held : ι → Option ρ
  taken : List ρ
  out : ω → List ρ

namespace Custody

variable {ι : Type u} {ω : Type v} {ρ : Type w}

/-- Every resource is at exactly one place. -/
structure Sound (c : Custody ι ω ρ) : Prop where
  /-- Nothing is with two holders. -/
  held_inj : ∀ {i j r}, c.held i = some r → c.held j = some r → i = j
  held_taken : ∀ {i r}, c.held i = some r → r ∈ c.taken
  /-- What a holder has is not out. -/
  held_in : ∀ {i r}, c.held i = some r → ∀ k, r ∉ c.out k
  /-- Nothing goes out twice in one way, -/
  out_nodup : ∀ k, (c.out k).Nodup
  /-- nor in two ways. -/
  out_inj : ∀ {k l r}, r ∈ c.out k → r ∈ c.out l → k = l
  out_taken : ∀ {k r}, r ∈ c.out k → r ∈ c.taken
  /-- Nothing is lost sight of. -/
  covered : ∀ {r}, r ∈ c.taken → (∃ i, c.held i = some r) ∨ ∃ k, r ∈ c.out k

/-- The custody in which nothing was ever taken in. -/
def empty : Custody ι ω ρ := ⟨fun _ ↦ none, [], fun _ ↦ []⟩

theorem sound_empty : (empty : Custody ι ω ρ).Sound := by
  constructor
  · rintro i j r ⟨⟩
  · rintro i r ⟨⟩
  · rintro i r ⟨⟩
  · intro k
    exact List.nodup_nil
  · rintro k l r ⟨⟩
  · rintro k r ⟨⟩
  · rintro r ⟨⟩

variable [DecidableEq ι] {c : Custody ι ω ρ} {i j : ι} {r : ρ}

/-- `i` takes `r` in. -/
def take (c : Custody ι ω ρ) (i : ι) (r : ρ) : Custody ι ω ρ :=
  { c with held := Function.update c.held i (some r), taken := r :: c.taken }

/-- `j` passes what it has on to `i`. -/
def move (c : Custody ι ω ρ) (i j : ι) : Custody ι ω ρ :=
  { c with held := Function.update (Function.update c.held i (c.held j)) j none }

/-! ## Taking in and passing on -/

theorem held_take {r' : ρ} (h : (c.take i r).held j = some r') :
    (j = i ∧ r' = r) ∨ c.held j = some r' := by
  change Function.update c.held i (some r) j = some r' at h
  by_cases hj : j = i
  · subst hj
    rw [Function.update_self] at h
    exact .inl ⟨rfl, (Option.some.inj h).symm⟩
  · rw [Function.update_of_ne hj] at h
    exact .inr h

theorem held_move {l : ι} (h : (c.move i j).held l = some r) :
    (l = i ∧ c.held j = some r) ∨ (l ≠ j ∧ c.held l = some r) := by
  change Function.update (Function.update c.held i (c.held j)) j none l = some r at h
  by_cases hj : l = j
  · subst hj
    rw [Function.update_self] at h
    cases h
  · rw [Function.update_of_ne hj] at h
    by_cases hi : l = i
    · subst hi
      rw [Function.update_self] at h
      exact .inl ⟨rfl, h⟩
    · rw [Function.update_of_ne hi] at h
      exact .inr ⟨hj, h⟩

namespace Sound

theorem take (hc : c.Sound) (hr : r ∉ c.taken) (hi : c.held i = none) : (c.take i r).Sound := by
  -- nobody has had `r` so far
  have hnew {j} : c.held j ≠ some r := fun h ↦ hr (hc.held_taken h)
  constructor
  · intro j j' r' h h'
    rcases held_take h with ⟨rfl, rfl⟩ | hj <;> rcases held_take h' with ⟨rfl, hrr⟩ | hj'
    · rfl
    · exact absurd hj' hnew
    · exact absurd (hrr ▸ hj) hnew
    · exact hc.held_inj hj hj'
  · intro j r' h
    rcases held_take h with ⟨rfl, rfl⟩ | h
    · exact List.mem_cons_self
    · exact List.mem_cons_of_mem _ (hc.held_taken h)
  · intro j r' h k hk
    rcases held_take h with ⟨rfl, rfl⟩ | h
    · exact hr (hc.out_taken hk)
    · exact hc.held_in h k hk
  · exact hc.out_nodup
  · exact hc.out_inj
  · intro k r' hk
    exact List.mem_cons_of_mem _ (hc.out_taken hk)
  · intro r' h
    rcases List.mem_cons.mp h with rfl | h
    · exact .inl ⟨i, Function.update_self ..⟩
    · rcases hc.covered h with ⟨j, hj⟩ | hout
      · have hji : j ≠ i := by
          rintro rfl
          rw [hi] at hj
          cases hj
        exact .inl ⟨j, (Function.update_of_ne hji ..).trans hj⟩
      · exact .inr hout

theorem move (hc : c.Sound) (hi : c.held i = none) (j : ι) : (c.move i j).Sound := by
  have hold {l r'} (h : (c.move i j).held l = some r') : ∃ l', c.held l' = some r' := by
    rcases held_move h with ⟨-, h⟩ | ⟨-, h⟩
    · exact ⟨j, h⟩
    · exact ⟨l, h⟩
  constructor
  · intro l l' r' h h'
    rcases held_move h with ⟨rfl, hj⟩ | ⟨hne, hl⟩ <;>
      rcases held_move h' with ⟨rfl, hj'⟩ | ⟨hne', hl'⟩
    · rfl
    · exact absurd (hc.held_inj hl' hj) hne'
    · exact absurd (hc.held_inj hl hj') hne
    · exact hc.held_inj hl hl'
  · intro l r' h
    obtain ⟨l', hl'⟩ := hold h
    exact hc.held_taken hl'
  · intro l r' h
    obtain ⟨l', hl'⟩ := hold h
    exact hc.held_in hl'
  · exact hc.out_nodup
  · exact hc.out_inj
  · exact hc.out_taken
  · intro r' h
    rcases hc.covered h with ⟨l, hl⟩ | hout
    · have hli : l ≠ i := by
        rintro rfl
        rw [hi] at hl
        cases hl
      by_cases hlj : l = j
      · subst hlj
        refine .inl ⟨i, (Function.update_of_ne hli.symm ..).trans ?_⟩
        rw [Function.update_self, hl]
      · refine .inl ⟨l, (Function.update_of_ne hlj ..).trans ?_⟩
        rw [Function.update_of_ne hli, hl]
    · exact .inr hout

end Sound

/-! ## Letting out -/

section Release

variable [DecidableEq ω]

/-- `i` lets out what it has, in the way `k`. -/
def release (c : Custody ι ω ρ) (k : ω) (i : ι) : Custody ι ω ρ :=
  { c with
    held := Function.update c.held i none
    out := Function.update c.out k ((c.held i).toList ++ c.out k) }

theorem held_release {k : ω} (h : (c.release k i).held j = some r) :
    j ≠ i ∧ c.held j = some r := by
  change Function.update c.held i none j = some r at h
  by_cases hj : j = i
  · subst hj
    rw [Function.update_self] at h
    cases h
  · rw [Function.update_of_ne hj] at h
    exact ⟨hj, h⟩

/-- Letting out nothing is doing nothing. -/
theorem release_of_none (h : c.held i = none) (k : ω) : c.release k i = c := by
  rw [release, h, Option.toList_none, List.nil_append, Function.update_eq_self, ← h,
    Function.update_eq_self]

theorem mem_out_release {k l : ω} {r' : ρ} (hi : c.held i = some r) :
    r' ∈ (c.release k i).out l ↔ (l = k ∧ r' = r) ∨ r' ∈ c.out l := by
  show r' ∈ Function.update c.out k ((c.held i).toList ++ c.out k) l ↔ _
  rw [hi]
  by_cases hl : l = k
  · subst hl
    rw [Function.update_self, Option.toList_some, List.mem_append, List.mem_singleton]
    simp
  · rw [Function.update_of_ne hl]
    simp [hl]

theorem nodup_out_release {k l : ω} (hi : c.held i = some r) (hr : r ∉ c.out k)
    (h : (c.out l).Nodup) : ((c.release k i).out l).Nodup := by
  show (Function.update c.out k ((c.held i).toList ++ c.out k) l).Nodup
  rw [hi]
  by_cases hl : l = k
  · subst hl
    rw [Function.update_self]
    exact List.nodup_cons.mpr ⟨hr, h⟩
  · rwa [Function.update_of_ne hl]

theorem Sound.release (hc : c.Sound) (k : ω) (i : ι) : (c.release k i).Sound := by
  cases hi : c.held i with
  | none => rwa [release_of_none hi]
  | some r =>
      constructor
      · intro j j' r' h h'
        exact hc.held_inj (held_release h).2 (held_release h').2
      · intro j r' h
        exact hc.held_taken (held_release h).2
      · intro j r' h l hl
        obtain ⟨hj, h⟩ := held_release h
        rcases (mem_out_release hi).mp hl with ⟨-, rfl⟩ | hl
        · exact hj (hc.held_inj h hi)
        · exact hc.held_in h l hl
      · intro l
        exact nodup_out_release hi (hc.held_in hi k) (hc.out_nodup l)
      · intro l l' r' h h'
        rcases (mem_out_release hi).mp h with ⟨rfl, rfl⟩ | hl <;>
          rcases (mem_out_release hi).mp h' with ⟨rfl, hr'⟩ | hl'
        · rfl
        · exact absurd hl' (hc.held_in hi _)
        · exact absurd (hr' ▸ hl) (hc.held_in hi _)
        · exact hc.out_inj hl hl'
      · intro l r' h
        rcases (mem_out_release hi).mp h with ⟨-, rfl⟩ | h
        · exact hc.held_taken hi
        · exact hc.out_taken h
      · intro r' h
        rcases hc.covered h with ⟨j, hj⟩ | ⟨l, hl⟩
        · by_cases hji : j = i
          · subst hji
            rw [hi] at hj
            cases hj
            exact .inr ⟨k, (mem_out_release hi).mpr (.inl ⟨rfl, rfl⟩)⟩
          · exact .inl ⟨j, (Function.update_of_ne hji ..).trans hj⟩
        · exact .inr ⟨l, (mem_out_release hi).mpr (.inr hl)⟩

end Release

/-! ## Holders in a table

Where the holders are the entries of a table, and `f` says what an entry has. -/

section Table

variable {α : Type*} {f : α → Option ρ} {t : ι → Option α} {taken : List ρ} {out : ω → List ρ}

/-- The custody of the holders in a table. -/
def ofTable (f : α → Option ρ) (t : ι → Option α) (taken : List ρ) (out : ω → List ρ) :
    Custody ι ω ρ :=
  ⟨(·.bind f) ∘ t, taken, out⟩

theorem ofTable_update (a : Option α) :
    ofTable f (Function.update t i a) taken out =
      { ofTable f t taken out with
        held := Function.update (ofTable f t taken out).held i (a.bind f) } := by
  rw [ofTable, Function.comp_update]
  rfl

/-- A new holder, with something that was never taken in or with nothing. -/
theorem Sound.new (h : (ofTable f t taken out).Sound) (hi : t i = none) (a : α)
    (ha : ∀ r ∈ f a, r ∉ taken) :
    (ofTable f (Function.update t i (some a)) ((f a).toList ++ taken) out).Sound := by
  have hheld : (ofTable f t taken out).held i = none := congrArg (·.bind f) hi
  rw [ofTable_update, Option.bind_some]
  cases hr : f a with
  | none =>
      have hsame : Function.update (ofTable f t taken out).held i none =
          (ofTable f t taken out).held := by
        rw [← hheld, Function.update_eq_self]
      show Sound { ofTable f t taken out with
        held := Function.update (ofTable f t taken out).held i none }
      rwa [hsame]
  | some r => exact h.take (ha r hr) hheld

/-- A holder that has nothing is given what another one has, of which `e` is left. -/
theorem Sound.passOn (h : (ofTable f t taken out).Sound) (hi : (t i).bind f = none) {a e : α}
    (hj : t j = some a) (he : f e = none) :
    (ofTable f (Function.update (Function.update t i (some a)) j (some e)) taken out).Sound := by
  have hheld : (ofTable f t taken out).held j = f a := congrArg (·.bind f) hj
  have hmove := h.move hi j
  rw [Custody.move, hheld] at hmove
  rw [ofTable_update, ofTable_update, Option.bind_some, Option.bind_some, he]
  exact hmove

/-- A holder lets out what it has, and is `b` after that. -/
theorem Sound.letOut [DecidableEq ω] (h : (ofTable f t taken out).Sound) (k : ω) (i : ι)
    {b : Option α} (hb : b.bind f = none) :
    (ofTable f (Function.update t i b) taken
      (Function.update out k (((t i).bind f).toList ++ out k))).Sound := by
  have hrelease := h.release k i
  rw [ofTable_update, hb]
  exact hrelease

end Table

end Custody

end Konative
