import Mathlib.Data.List.Pairwise
import Mathlib.Data.List.Perm.Basic
import Mathlib.Data.Set.Lattice
import Mathlib.Order.CompletePartialOrder

/-!
# Footprints

A state is made of parts, and two states may agree on some of them.  A transformation
that writes to some parts, by what it reads of some, has these for a *footprint*: it
leaves the other parts as they were, and states that agree on what it reads agree
afterwards on what it writes.

Transformations that do not touch what the others read or write are *independent*.  They
commute (`Footprint.comm`), so a list of them may be run in any order (`foldl_perm`).  A
list that is looked at through some parts only is the list of those that write there, if
these read nothing else (`agree_foldl_filter`).
-/

universe u v

/-- The parts of a state, as what it is for two states to have the same one. -/
structure Parts (S : Type u) (ι : Type v) where
  same : ι → S → S → Prop
  equivalence : ∀ i, Equivalence (same i)
  /-- There are no other parts. -/
  ext : ∀ {s t}, (∀ i, same i s t) → s = t

namespace Parts

variable {S : Type u} {ι : Type v} (P : Parts S ι)

/-- Two states agree on some parts. -/
def Agree (A : Set ι) (s t : S) : Prop := ∀ i ∈ A, P.same i s t

variable {P} {A B : Set ι} {s t r : S}

theorem Agree.refl (A : Set ι) (s : S) : P.Agree A s s := fun i _ ↦ (P.equivalence i).refl s

theorem Agree.symm (h : P.Agree A s t) : P.Agree A t s := fun i hi ↦
  (P.equivalence i).symm (h i hi)

theorem Agree.trans (h : P.Agree A s t) (h' : P.Agree A t r) : P.Agree A s r := fun i hi ↦
  (P.equivalence i).trans (h i hi) (h' i hi)

theorem Agree.mono (h : P.Agree A s t) (hsub : B ⊆ A) : P.Agree B s t := fun i hi ↦ h i (hsub hi)

theorem Agree.union (h : P.Agree A s t) (h' : P.Agree B s t) : P.Agree (A ∪ B) s t := by
  rintro i (hi | hi)
  · exact h i hi
  · exact h' i hi

/-- Agreeing on some parts and on the others is being the same. -/
theorem Agree.eq (h : P.Agree A s t) (h' : P.Agree Aᶜ s t) : s = t := by
  apply P.ext
  intro i
  by_cases hi : i ∈ A
  · exact h i hi
  · exact h' i hi

variable (P)

/-- What `f` writes, it writes by what it reads, and it writes nothing else. -/
structure Footprint (f : S → S) (reads writes : Set ι) : Prop where
  frame : ∀ s, P.Agree writesᶜ (f s) s
  depends : ∀ {s t}, P.Agree reads s t → P.Agree writes (f s) (f t)

/-- Neither writes what the other reads or writes. -/
structure Independent (reads writes reads' writes' : Set ι) : Prop where
  writes_writes : Disjoint writes writes'
  reads_writes : Disjoint reads writes'
  writes_reads : Disjoint reads' writes

variable {P} {f g : S → S} {reads writes reads' writes' : Set ι}

theorem Independent.symm (h : Independent reads writes reads' writes') :
    Independent reads' writes' reads writes := 
  ⟨h.writes_writes.symm, h.writes_reads, h.reads_writes⟩

/-- What a footprint does not write, it leaves. -/
theorem Footprint.frame_of_disjoint (h : P.Footprint f reads writes) (hA : Disjoint A writes)
    (s : S) : P.Agree A (f s) s := (h.frame s).mono (Set.disjoint_right.mp hA.symm)

/-- States that agree where it reads agree afterwards wherever they did, and where it
writes. -/
theorem Footprint.agree (h : P.Footprint f reads writes) (hreads : reads ⊆ A)
    (hs : P.Agree A s t) : P.Agree (A ∪ writes) (f s) (f t) := by
  have hwrites : P.Agree writes (f s) (f t) := h.depends (hs.mono hreads)
  intro i hi
  by_cases hw : i ∈ writes
  · exact hwrites i hw
  · have hA : i ∈ A := hi.resolve_right hw
    exact (P.equivalence i).trans (h.frame s i hw) <|
      (P.equivalence i).trans (hs i hA) ((P.equivalence i).symm (h.frame t i hw))

/-- Independent transformations commute. -/
theorem Footprint.comm (hf : P.Footprint f reads writes) (hg : P.Footprint g reads' writes')
    (h : Independent reads writes reads' writes') (s : S) : f (g s) = g (f s) := by
  -- where `f` writes: `g` has changed nothing that `f` reads, and leaves what it has written
  have hwrites : P.Agree writes (f (g s)) (g (f s)) :=
    (hf.depends (hg.frame_of_disjoint h.reads_writes s)).trans
      (hg.frame_of_disjoint h.writes_writes (f s)).symm
  have hwrites' : P.Agree writes' (f (g s)) (g (f s)) :=
    (hf.frame_of_disjoint h.writes_writes.symm (g s)).trans
      (hg.depends (hf.frame_of_disjoint h.writes_reads s)).symm
  have hrest : P.Agree (writes ∪ writes')ᶜ (f (g s)) (g (f s)) := by
    rw [Set.compl_union]
    have hf' : P.Agree (writesᶜ ∩ writes'ᶜ) (f (g s)) s :=
      ((hf.frame (g s)).mono Set.inter_subset_left).trans
        ((hg.frame s).mono Set.inter_subset_right)
    have hg' : P.Agree (writesᶜ ∩ writes'ᶜ) (g (f s)) s :=
      ((hg.frame (f s)).mono Set.inter_subset_right).trans
        ((hf.frame s).mono Set.inter_subset_left)
    exact hf'.trans hg'.symm
  exact (hwrites.union hwrites').eq hrest

/-! ## Lists -/

section Lists

variable {α : Type*} (run : α → S → S) {reads writes : α → Set ι} {l l' : List α}
  (hrun : ∀ a, P.Footprint (run a) (reads a) (writes a))
include hrun

/-- Pairwise independent transformations may be run in any order. -/
theorem foldl_perm (hind : l.Pairwise fun a b ↦ Independent (reads a) (writes a) (reads b)
      (writes b)) (hperm : l.Perm l') (s : S) :
    l.foldl (fun s a ↦ run a s) s = l'.foldl (fun s a ↦ run a s) s := by
  apply hperm.foldl_eq'
  intro a ha b hb s
  rcases eq_or_ne a b with rfl | hab
  · rfl
  · have : Std.Symm fun a b ↦ Independent (reads a) (writes a) (reads b) (writes b) :=
      ⟨fun _ _ h ↦ h.symm⟩
    have h : Independent (reads b) (writes b) (reads a) (writes a) := hind.forall hb ha hab.symm
    exact (hrun b).comm (hrun a) h s

open Classical in
/-- Seen through `A`, a list is the list of those that write to it, if these read nothing
else. -/
theorem agree_foldl_filter (hA : ∀ a ∈ l, reads a ⊆ A ∨ Disjoint A (writes a))
    (hs : P.Agree A s t) :
    P.Agree A (l.foldl (fun s a ↦ run a s) s)
      ((l.filter fun a ↦ ¬ Disjoint A (writes a)).foldl (fun s a ↦ run a s) t) := by
  induction l generalizing s t with
  | nil => exact hs
  | cons a l ih =>
      have ih {s t : S} := ih (s := s) (t := t) fun b hb ↦ hA b (List.mem_cons_of_mem a hb)
      rw [List.foldl_cons]
      by_cases ha : Disjoint A (writes a)
      · rw [List.filter_cons_of_neg (by simp [ha])]
        exact ih (((hrun a).frame_of_disjoint ha s).trans hs)
      · rw [List.filter_cons_of_pos (by simp [ha]), List.foldl_cons]
        have hreads : reads a ⊆ A := (hA a List.mem_cons_self).resolve_right ha
        exact ih (((hrun a).agree hreads hs).mono Set.subset_union_left)

end Lists

end Parts
