import Mathlib.Data.Fintype.Card
import Mathlib.Data.List.FinRange
import Mathlib.Data.List.Nodup

/-!
# Association lists that are filled by insert-or-assign

An entry is put in place of the one that has its key, or at the end.  A family of entries that
is put in one after the other ends up there as it is if and only if its keys differ; then
putting it in once more changes nothing.
-/

universe u v w

namespace Assoc

variable {K : Type u} {V : Type v} [DecidableEq K]

/-- Put an entry in place of the one with its key, or at the end. -/
def insertOrAssign (k : K) (v : V) (l : List (K × V)) : List (K × V) :=
  if k ∈ l.map Prod.fst then l.map fun d ↦ if d.1 = k then (k, v) else d else l ++ [(k, v)]

section Insert

variable {k : K} {v : V} {l : List (K × V)}

theorem insertOrAssign_of_mem (h : k ∈ l.map Prod.fst) :
    insertOrAssign k v l = l.map fun d ↦ if d.1 = k then (k, v) else d := if_pos h

theorem insertOrAssign_of_notMem (h : k ∉ l.map Prod.fst) :
    insertOrAssign k v l = l ++ [(k, v)] := if_neg h

theorem keys_insertOrAssign : (insertOrAssign k v l).map Prod.fst =
    if k ∈ l.map Prod.fst then l.map Prod.fst else l.map Prod.fst ++ [k] := by
  by_cases h : k ∈ l.map Prod.fst
  · rw [insertOrAssign_of_mem h, if_pos h, List.map_map]
    apply List.map_congr_left
    intro d _
    rw [Function.comp_apply]
    split
    · rename_i hd
      exact hd.symm
    · rfl
  · rw [insertOrAssign_of_notMem h, if_neg h, List.map_append]
    rfl

theorem nodup_keys_insertOrAssign (h : (l.map Prod.fst).Nodup) :
    ((insertOrAssign k v l).map Prod.fst).Nodup := by
  rw [keys_insertOrAssign]
  split
  · exact h
  · rename_i hk
    rw [List.nodup_append]
    refine ⟨h, List.nodup_singleton k, fun a ha b hb ↦ ?_⟩
    rw [List.mem_singleton.mp hb]
    rintro rfl
    exact hk ha

theorem mem_keys_insertOrAssign {j : K} (h : j ∈ (insertOrAssign k v l).map Prod.fst) :
    j ∈ l.map Prod.fst ∨ j = k := by
  rw [keys_insertOrAssign] at h
  split at h
  · exact .inl h
  · exact (List.mem_append.mp h).imp_right List.mem_singleton.mp

/-- Changing the entry just put in is putting in the changed one. -/
theorem map_insertOrAssign (g : V → V) :
    ((insertOrAssign k v l).map fun d ↦ if d.1 = k then (k, g d.2) else d) =
      insertOrAssign k (g v) l := by
  by_cases h : k ∈ l.map Prod.fst
  · rw [insertOrAssign_of_mem h, insertOrAssign_of_mem h, List.map_map]
    apply List.map_congr_left
    intro d _
    rw [Function.comp_apply]
    by_cases hd : d.1 = k
    · rw [if_pos hd, if_pos rfl, if_pos hd]
    · rw [if_neg hd, if_neg hd, if_neg hd]
  · rw [insertOrAssign_of_notMem h, insertOrAssign_of_notMem h, List.map_append]
    congr 1
    · conv_rhs => rw [← List.map_id l]
      apply List.map_congr_left
      intro d hd
      rw [if_neg, id]
      rintro rfl
      exact h (List.mem_map_of_mem hd)
    · rw [List.map_singleton, if_pos rfl]

/-- Before other entries there may be anything without the key. -/
theorem insertOrAssign_append (k : K) (v : V) {l₁ l₂ : List (K × V)} (h : k ∉ l₁.map Prod.fst) :
    insertOrAssign k v (l₁ ++ l₂) = l₁ ++ insertOrAssign k v l₂ := by
  by_cases h₂ : k ∈ l₂.map Prod.fst
  · have hmem : k ∈ (l₁ ++ l₂).map Prod.fst := by
      rw [List.map_append]
      exact List.mem_append_right _ h₂
    have hself : l₁.map (fun d ↦ if d.1 = k then (k, v) else d) = l₁ := by
      conv_rhs => rw [← List.map_id l₁]
      apply List.map_congr_left
      intro d hd
      rw [if_neg, id]
      rintro rfl
      exact h (List.mem_map_of_mem hd)
    rw [insertOrAssign_of_mem hmem, insertOrAssign_of_mem h₂, List.map_append, hself]
  · have hnot : k ∉ (l₁ ++ l₂).map Prod.fst := by
      rw [List.map_append]
      exact fun hk ↦ (List.mem_append.mp hk).elim h h₂
    rw [insertOrAssign_of_notMem hnot, insertOrAssign_of_notMem h₂, List.append_assoc]

/-- The keys may be renamed. -/
theorem insertOrAssign_map_key {K' : Type*} [DecidableEq K'] {f : K → K'}
    (hf : Function.Injective f) (k : K) (v : V) (l : List (K × V)) :
    insertOrAssign (f k) v (l.map fun d ↦ (f d.1, d.2)) =
      (insertOrAssign k v l).map fun d ↦ (f d.1, d.2) := by
  have hkeys : f k ∈ (l.map fun d ↦ (f d.1, d.2)).map Prod.fst ↔ k ∈ l.map Prod.fst := by
    rw [List.map_map, ← List.mem_map_of_injective hf, List.map_map]
    rfl
  by_cases h : k ∈ l.map Prod.fst
  · rw [insertOrAssign_of_mem h, insertOrAssign_of_mem (hkeys.mpr h), List.map_map, List.map_map]
    apply List.map_congr_left
    intro d _
    rw [Function.comp_apply, Function.comp_apply]
    by_cases hd : d.1 = k
    · rw [if_pos hd, if_pos (congrArg f hd)]
    · rw [if_neg hd, if_neg (hf.ne hd)]
  · rw [insertOrAssign_of_notMem h, insertOrAssign_of_notMem (mt hkeys.mp h), List.map_append]
    rfl

/-- An entry that is there already is put in its own place. -/
theorem insertOrAssign_eq_self (h : (k, v) ∈ l) (huniq : ∀ d ∈ l, d.1 = k → d = (k, v)) :
    insertOrAssign k v l = l := by
  rw [insertOrAssign_of_mem (List.mem_map_of_mem h)]
  conv_rhs => rw [← List.map_id l]
  apply List.map_congr_left
  intro d hd
  rw [id]
  split
  · rename_i hk
    exact (huniq d hd hk).symm
  · rfl

end Insert

/-! ## A family of entries -/

variable {ι : Type w} (key : ι → K) (val : ι → V)

/-- Put the entries of a family in, one after the other. -/
def insertAll (is : List ι) (l : List (K × V)) : List (K × V) :=
  is.foldl (fun l i ↦ insertOrAssign (key i) (val i) l) l

variable {key val} {is : List ι} {l : List (K × V)}

theorem insertAll_cons (i : ι) : insertAll key val (i :: is) l =
    insertAll key val is (insertOrAssign (key i) (val i) l) := rfl

theorem nodup_keys_insertAll (h : (l.map Prod.fst).Nodup) :
    ((insertAll key val is l).map Prod.fst).Nodup := by
  induction is generalizing l with
  | nil => exact h
  | cons i is ih => exact ih (nodup_keys_insertOrAssign h)

theorem mem_keys_insertAll {k : K} (h : k ∈ (insertAll key val is l).map Prod.fst) :
    k ∈ l.map Prod.fst ∨ ∃ i, k = key i := by
  induction is generalizing l with
  | nil => exact .inl h
  | cons i is ih =>
      rcases ih h with h | h
      · exact (mem_keys_insertOrAssign h).imp_right fun h ↦ ⟨i, h⟩
      · exact .inr h

/-- Entries with new and different keys come at the end, as they are. -/
theorem insertAll_of_nodup (h : (is.map key).Nodup) (hl : ∀ i ∈ is, key i ∉ l.map Prod.fst) :
    insertAll key val is l = l ++ is.map fun i ↦ (key i, val i) := by
  induction is generalizing l with
  | nil => exact (List.append_nil l).symm
  | cons i is ih =>
      rw [List.map_cons, List.nodup_cons] at h
      rw [insertAll_cons, insertOrAssign_of_notMem (hl i List.mem_cons_self), ih h.2,
        List.append_assoc]
      · rfl
      · intro j hj hmem
        rw [List.map_append, List.mem_append] at hmem
        rcases hmem with hmem | hmem
        · exact hl j (List.mem_cons_of_mem i hj) hmem
        · have hji : key j = key i := List.mem_singleton.mp hmem
          exact h.1 (hji ▸ List.mem_map_of_mem hj)

/-- Entries that are there already change nothing. -/
theorem insertAll_eq_self (hkey : Function.Injective key) {js : List ι} (h : is ⊆ js) :
    insertAll key val is (js.map fun i ↦ (key i, val i)) = js.map fun i ↦ (key i, val i) := by
  induction is with
  | nil => rfl
  | cons i is ih =>
      rw [List.cons_subset] at h
      have hself : insertOrAssign (key i) (val i) (js.map fun i ↦ (key i, val i)) =
          js.map fun i ↦ (key i, val i) := by
        have hmem : (key i, val i) ∈ js.map fun i ↦ (key i, val i) := List.mem_map_of_mem h.1
        apply insertOrAssign_eq_self hmem
        intro d hd hk
        obtain ⟨j, -, rfl⟩ := List.mem_map.mp hd
        rw [hkey hk]
      rw [insertAll_cons, hself, ih h.2]

theorem mem_insertOrAssign {k k' : K} {v v' : V} :
    (k', v') ∈ insertOrAssign k v l ↔ (k' = k ∧ v' = v) ∨ (k' ≠ k ∧ (k', v') ∈ l) := by
  by_cases h : k ∈ l.map Prod.fst
  · rw [insertOrAssign_of_mem h, List.mem_map]
    constructor
    · rintro ⟨d, hd, heq⟩
      split at heq
      · cases heq
        exact .inl ⟨rfl, rfl⟩
      · subst heq
        exact .inr ⟨‹_›, hd⟩
    · rintro (⟨rfl, rfl⟩ | ⟨hne, hmem⟩)
      · obtain ⟨d, hd, hk⟩ := List.mem_map.mp h
        exact ⟨d, hd, if_pos hk⟩
      · exact ⟨_, hmem, if_neg hne⟩
  · rw [insertOrAssign_of_notMem h, List.mem_append, List.mem_singleton, Prod.mk.injEq]
    constructor
    · rintro (hmem | heq)
      · refine .inr ⟨?_, hmem⟩
        rintro rfl
        exact h (List.mem_map_of_mem hmem)
      · exact .inl heq
    · rintro (heq | ⟨-, hmem⟩)
      · exact .inr heq
      · exact .inl hmem

/-- The last entry with its key. -/
def IsLast (key : ι → K) (is : List ι) (i : ι) : Prop :=
  ∃ is₁ is₂, is = is₁ ++ i :: is₂ ∧ ∀ j ∈ is₂, key j ≠ key i

omit [DecidableEq K] in
theorem IsLast.mem {i : ι} (h : IsLast key is i) : i ∈ is := by
  obtain ⟨is₁, is₂, rfl, -⟩ := h
  exact List.mem_append_right is₁ List.mem_cons_self

/-- What is there in the end is the last entry of each key. -/
theorem mem_insertAll {k : K} {v : V} :
    (k, v) ∈ insertAll key val is l ↔
      (∃ i, IsLast key is i ∧ key i = k ∧ val i = v) ∨ ((k, v) ∈ l ∧ ∀ j ∈ is, key j ≠ k) := by
  induction is generalizing l with
  | nil =>
      constructor
      · intro h
        exact .inr ⟨h, by simp⟩
      · rintro (⟨i, hi, -⟩ | ⟨h, -⟩)
        · cases hi.mem
        · exact h
  | cons i is ih =>
      rw [insertAll_cons, ih, mem_insertOrAssign]
      constructor
      · rintro (⟨j, ⟨is₁, is₂, rfl, hlast⟩, hj⟩ | ⟨⟨rfl, rfl⟩ | ⟨hne, hmem⟩, hlast⟩)
        · exact .inl ⟨j, ⟨i :: is₁, is₂, rfl, hlast⟩, hj⟩
        · exact .inl ⟨i, ⟨[], is, rfl, hlast⟩, rfl, rfl⟩
        · exact .inr ⟨hmem, List.forall_mem_cons.mpr ⟨hne.symm, hlast⟩⟩
      · rintro (⟨j, ⟨is₁, is₂, hsplit, hlast⟩, rfl, rfl⟩ | ⟨hmem, hlast⟩)
        · cases is₁ with
          | nil =>
              cases hsplit
              exact .inr ⟨.inl ⟨rfl, rfl⟩, hlast⟩
          | cons i' is₁ =>
              cases hsplit
              exact .inl ⟨j, ⟨is₁, is₂, rfl, hlast⟩, rfl, rfl⟩
        · obtain ⟨hne, hlast⟩ := List.forall_mem_cons.mp hlast
          exact .inr ⟨.inr ⟨hne.symm, hmem⟩, hlast⟩

/-- With as many entries as there are in the family, its keys differ. -/
theorem injective_of_length {n : Nat} {key : Fin n → K} {l : List (K × V)}
    (hnodup : (l.map Prod.fst).Nodup) (hkeys : ∀ k ∈ l.map Prod.fst, ∃ i, k = key i)
    (hlen : l.length = n) : Function.Injective key := by
  have hsub : (l.map Prod.fst).toFinset ⊆ Finset.univ.image key := by
    intro k hk
    obtain ⟨i, rfl⟩ := hkeys k (List.mem_toFinset.mp hk)
    exact Finset.mem_image_of_mem key (Finset.mem_univ i)
  have hcard : n ≤ (Finset.univ.image key).card := by
    have hle := Finset.card_le_card hsub
    rw [List.toFinset_card_of_nodup hnodup, List.length_map, hlen] at hle
    exact hle
  have himage : (Finset.univ.image key).card = (Finset.univ : Finset (Fin n)).card := by
    apply Nat.le_antisymm Finset.card_image_le
    rw [Finset.card_fin]
    exact hcard
  rw [Finset.card_image_iff, Finset.coe_univ] at himage
  exact Set.injOn_univ.mp himage

/-! ## The first entry of each value -/

section Firsts

variable {K : Type u} {V : Type v} [DecidableEq V] {seen : List V} {l : List (K × V)}

/-- The entries whose value was not there before, where `seen` was there to begin with. -/
def firsts (seen : List V) : List (K × V) → List (K × V)
  | [] => []
  | p :: l => if p.2 ∈ seen then firsts seen l else p :: firsts (p.2 :: seen) l

theorem firsts_subset : firsts seen l ⊆ l := by
  induction l generalizing seen with
  | nil => exact List.Subset.refl []
  | cons p l ih =>
      rw [firsts]
      split
      · exact fun q hq ↦ List.mem_cons_of_mem p (ih hq)
      · exact List.cons_subset_cons p ih

theorem mem_map_firsts {v : V} :
    v ∈ (firsts seen l).map Prod.snd ↔ v ∉ seen ∧ v ∈ l.map Prod.snd := by
  induction l generalizing seen with
  | nil => simp [firsts]
  | cons p l ih =>
      rw [firsts]
      by_cases hp : p.2 ∈ seen
      · rw [if_pos hp, ih, List.map_cons, List.mem_cons]
        constructor
        · rintro ⟨hseen, hmem⟩
          exact ⟨hseen, .inr hmem⟩
        · rintro ⟨hseen, rfl | hmem⟩
          · exact absurd hp hseen
          · exact ⟨hseen, hmem⟩
      · rw [if_neg hp, List.map_cons, List.map_cons, List.mem_cons, List.mem_cons, ih]
        constructor
        · rintro (rfl | ⟨hseen, hmem⟩)
          · exact ⟨hp, .inl rfl⟩
          · exact ⟨fun h ↦ hseen (List.mem_cons_of_mem _ h), .inr hmem⟩
        · rintro ⟨hseen, rfl | hmem⟩
          · exact .inl rfl
          · by_cases hv : v = p.2
            · exact .inl hv
            · exact .inr ⟨fun h ↦ (List.mem_cons.mp h).elim hv hseen, hmem⟩

theorem nodup_firsts : ((firsts seen l).map Prod.snd).Nodup := by
  induction l generalizing seen with
  | nil => exact List.nodup_nil
  | cons p l ih =>
      rw [firsts]
      split
      · exact ih
      · rw [List.map_cons, List.nodup_cons]
        exact ⟨fun h ↦ (mem_map_firsts.mp h).1 List.mem_cons_self, ih⟩

/-- One more entry is a first one or not. -/
theorem firsts_concat (seen : List V) (l : List (K × V)) (p : K × V) :
    firsts seen (l ++ [p]) =
      firsts seen l ++ if p.2 ∈ seen ∨ p.2 ∈ l.map Prod.snd then [] else [p] := by
  induction l generalizing seen with
  | nil => by_cases hp : p.2 ∈ seen <;> simp [firsts, hp]
  | cons q l ih =>
      rw [List.cons_append, firsts, firsts]
      by_cases hq : q.2 ∈ seen
      · rw [if_pos hq, if_pos hq, ih]
        congr 2
        rw [List.map_cons, List.mem_cons, eq_iff_iff]
        constructor
        · rintro (h | h)
          · exact .inl h
          · exact .inr (.inr h)
        · rintro (h | h | h)
          · exact .inl h
          · exact .inl (h ▸ hq)
          · exact .inr h
      · rw [if_neg hq, if_neg hq, ih, List.cons_append]
        congr 3
        rw [List.map_cons, List.mem_cons, List.mem_cons, eq_iff_iff, or_assoc, or_left_comm]

/-- What is left of the first entries when the later ones of a key take the place of the
earlier ones has no value twice. -/
theorem nodup_insertAll_firsts [DecidableEq K] :
    ((insertAll Prod.fst Prod.snd (firsts seen l) []).map Prod.snd).Nodup := by
  have hkeys : ((insertAll Prod.fst Prod.snd (firsts seen l) []).map Prod.fst).Nodup :=
    nodup_keys_insertAll List.nodup_nil
  have hmem : ∀ p ∈ insertAll Prod.fst Prod.snd (firsts seen l) [], p ∈ firsts seen l := by
    rintro ⟨k, v⟩ h
    rcases mem_insertAll.mp h with ⟨p, hp, rfl, rfl⟩ | ⟨h, -⟩
    · exact hp.mem
    · cases h
  refine List.Nodup.map_on ?_ (List.Nodup.of_map _ hkeys)
  intro p hp q hq h
  exact List.inj_on_of_nodup_map nodup_firsts (hmem p hp) (hmem q hq) h

end Firsts

end Assoc
