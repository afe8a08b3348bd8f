import Konative.Lib.Assoc

/-!
# Trees of files

The files of a directory tree, by their paths, with the directories that were made
themselves.  Archives are unpacked into directories of one tree, one after the other, over
whatever is there.  In a directory that has nothing to do with what is there so far, an
archive finds what it would find in an empty tree; so archives that are unpacked into
directories of their own do not see each other.
-/

universe u v

/-- Files and their contents by path; no content is a directory. -/
abbrev FileTree (N : Type u) (C : Type v) := List (List N × Option C)

namespace FileTree

variable {N : Type u} {C : Type v}

/-- The tree, at the path `dir` of another one. -/
def moved (dir : List N) (t : FileTree N C) : FileTree N C := t.map fun f ↦ (dir ++ f.1, f.2)

/-- The directory has nothing to do with what is in the tree. -/
def Apart (dir : List N) (t : FileTree N C) : Prop := ∀ f ∈ t, ¬dir <+: f.1 ∧ ¬f.1 <+: dir

section Apart

variable {dir dir' p : List N} {t fs : FileTree N C}

theorem apart_nil : Apart dir ([] : FileTree N C) := by
  rintro f ⟨⟩

theorem Apart.append {t' : FileTree N C} (h : Apart dir t) (h' : Apart dir t') :
    Apart dir (t ++ t') := by
  intro f hf
  rcases List.mem_append.mp hf with hf | hf
  · exact h f hf
  · exact h' f hf

/-- Of two directories none of which is in the other, one is apart from what is in the
other. -/
theorem apart_moved (h : ¬dir <+: dir') (h' : ¬dir' <+: dir) (t : FileTree N C) :
    Apart dir (t.moved dir') := by
  intro f hf
  obtain ⟨g, -, rfl⟩ := List.mem_map.mp hf
  constructor
  · intro hpre
    rcases List.prefix_or_prefix_of_prefix hpre (List.prefix_append dir' g.1) with hd | hd
    · exact h hd
    · exact h' hd
  · intro hpre
    exact h' ((List.prefix_append dir' g.1).trans hpre)

/-- Nothing of the tree is on the way to a path of the directory, nor under it. -/
theorem Apart.not_prefix (h : Apart dir fs) {f : List N × Option C} (hf : f ∈ fs) (p : List N) :
    ¬dir ++ p <+: f.1 ∧ ¬f.1 <+: dir ++ p := by
  constructor
  · intro hpre
    exact (h f hf).1 ((List.prefix_append dir p).trans hpre)
  · intro hpre
    rcases List.prefix_or_prefix_of_prefix hpre (List.prefix_append dir p) with hd | hd
    · exact (h f hf).2 hd
    · exact (h f hf).1 hd

theorem Apart.ne (h : Apart dir fs) {f : List N × Option C} (hf : f ∈ fs) (p : List N) :
    f.1 ≠ dir ++ p := fun heq ↦ (h.not_prefix hf p).1 (heq ▸ List.prefix_refl _)

end Apart

variable [DecidableEq N]

/-- `p` is strictly above `q`. -/
def above (p q : List N) : Bool := p.isPrefixOf q && p ≠ q

/-- Make a directory and those on the way to it, unless there is a file in the way. -/
def makeDir (p : List N) (t : FileTree N C) : Option (FileTree N C) :=
  if t.any fun f ↦ f.2.isSome && f.1.isPrefixOf p then none
  else some (Assoc.insertOrAssign p none t)

/-- Make an entry, in place of the one at its path.  A file in the way becomes a directory, but
no file takes the place of a directory with something in it. -/
def put (t : FileTree N C) (p : List N) (e : Option C) : Option (FileTree N C) :=
  if e.isSome && t.any fun f ↦ above p f.1 then none
  else some (Assoc.insertOrAssign p e (t.filter fun f ↦ !(f.2.isSome && above f.1 p)))

/-- Unpack the members of an archive into a directory, over what is there. -/
def unpack (dir : List N) (members t : FileTree N C) : Option (FileTree N C) :=
  members.foldlM (fun t m ↦ t.put (dir ++ m.1) m.2) t

/-- What is at a directory or under it, by the paths from there. -/
def under (dir : List N) (t : FileTree N C) : FileTree N C :=
  t.filterMap fun f ↦ (dir.isPrefixOf? f.1).map (·, f.2)

/-- Whether there is a file or a directory at a path. -/
def present (p : List N) (t : FileTree N C) : Bool := t.any fun f ↦ p.isPrefixOf f.1

/-- The content of a file. -/
def content? (p : List N) (t : FileTree N C) : Option C := (t.find? fun f ↦ f.1 = p).bind Prod.snd

/-! ## Apart from everything else -/

section Unpack

variable {dir p : List N} {t fs : FileTree N C} {e : Option C}

omit [DecidableEq N] in
/-- What is asked of every entry depends on those of the directory only. -/
theorem any_append_moved {q r : List N × Option C → Bool} (hfs : ∀ f ∈ fs, q f = false)
    (ht : ∀ f ∈ t, q (dir ++ f.1, f.2) = r f) : (fs ++ t.moved dir).any q = t.any r := by
  rw [List.any_append, moved, List.any_map]
  have hnone : fs.any q = false := by
    rw [List.any_eq_false]
    intro f hf
    rw [hfs f hf]
    exact Bool.false_ne_true
  rw [hnone, Bool.false_or, Bool.eq_iff_iff, List.any_eq_true, List.any_eq_true]
  constructor
  · rintro ⟨f, hf, hq⟩
    exact ⟨f, hf, (ht f hf).symm.trans hq⟩
  · rintro ⟨f, hf, hr⟩
    exact ⟨f, hf, (ht f hf).trans hr⟩

omit [DecidableEq N] in
theorem filter_append_moved {q r : List N × Option C → Bool} (hfs : ∀ f ∈ fs, q f = true)
    (ht : ∀ f ∈ t, q (dir ++ f.1, f.2) = r f) :
    (fs ++ t.moved dir).filter q = fs ++ moved dir (t.filter r) := by
  rw [List.filter_append, List.filter_eq_self.mpr hfs, moved, List.filter_map, moved]
  congr 2
  exact List.filter_congr ht

theorem isPrefixOf_append (dir p p' : List N) :
    (dir ++ p).isPrefixOf (dir ++ p') = p.isPrefixOf p' := by
  rw [Bool.eq_iff_iff, List.isPrefixOf_iff_prefix, List.isPrefixOf_iff_prefix,
    List.prefix_append_right_inj]

theorem Apart.isPrefixOf (h : Apart dir fs) {f : List N × Option C} (hf : f ∈ fs) (p : List N) :
    (dir ++ p).isPrefixOf f.1 = false ∧ f.1.isPrefixOf (dir ++ p) = false := by
  rw [← Bool.not_eq_true, ← Bool.not_eq_true, List.isPrefixOf_iff_prefix,
    List.isPrefixOf_iff_prefix]
  exact h.not_prefix hf p

theorem above_append (dir p q : List N) : above (dir ++ p) (dir ++ q) = above p q := by
  rw [above, above, isPrefixOf_append]
  simp only [ne_eq, List.append_cancel_left_eq]

theorem Apart.above (h : Apart dir fs) {f : List N × Option C} (hf : f ∈ fs) (p : List N) :
    above (dir ++ p) f.1 = false ∧ above f.1 (dir ++ p) = false := by
  rw [FileTree.above, FileTree.above, (h.isPrefixOf hf p).1, (h.isPrefixOf hf p).2]
  exact ⟨rfl, rfl⟩

theorem insertOrAssign_append_moved (h : Apart dir fs) (p : List N) (e : Option C) :
    Assoc.insertOrAssign (dir ++ p) e (fs ++ t.moved dir) =
      fs ++ moved dir (Assoc.insertOrAssign p e t) := by
  have hkey : dir ++ p ∉ fs.map Prod.fst := by
    intro hmem
    obtain ⟨f, hf, heq⟩ := List.mem_map.mp hmem
    exact h.ne hf p heq
  have hmoved : Assoc.insertOrAssign (dir ++ p) e (t.moved dir) =
      moved dir (Assoc.insertOrAssign p e t) :=
    Assoc.insertOrAssign_map_key (List.append_right_injective dir) p e t
  rw [Assoc.insertOrAssign_append _ _ hkey, hmoved]

theorem makeDir_append_moved (h : Apart dir fs) (p : List N) :
    makeDir (dir ++ p) (fs ++ t.moved dir) = (makeDir p t).map fun t ↦ fs ++ t.moved dir := by
  have hfile : ((fs ++ t.moved dir).any fun f ↦ f.2.isSome && f.1.isPrefixOf (dir ++ p)) =
      t.any fun f ↦ f.2.isSome && f.1.isPrefixOf p := by
    apply any_append_moved
    · intro f hf
      rw [(h.isPrefixOf hf p).2, Bool.and_false]
    · intro f _
      rw [isPrefixOf_append]
  rw [makeDir, makeDir, hfile, insertOrAssign_append_moved h]
  split
  · rfl
  · rfl

theorem put_append_moved (h : Apart dir fs) (p : List N) (e : Option C) :
    put (fs ++ t.moved dir) (dir ++ p) e = (put t p e).map fun t ↦ fs ++ t.moved dir := by
  have hfull : ((fs ++ t.moved dir).any fun f ↦ above (dir ++ p) f.1) =
      t.any fun f ↦ above p f.1 := by
    apply any_append_moved
    · intro f hf
      exact (h.above hf p).1
    · intro f _
      exact above_append dir p f.1
  have hway : ((fs ++ t.moved dir).filter fun f ↦ !(f.2.isSome && above f.1 (dir ++ p))) =
      fs ++ moved dir (t.filter fun f ↦ !(f.2.isSome && above f.1 p)) := by
    apply filter_append_moved
    · intro f hf
      rw [(h.above hf p).2, Bool.and_false, Bool.not_false]
    · intro f _
      rw [above_append]
  rw [put, put, hfull, hway, insertOrAssign_append_moved h]
  split
  · rfl
  · rfl

/-- An archive finds what it would find in an empty tree. -/
theorem unpack_append_moved (h : Apart dir fs) (members : FileTree N C) :
    unpack dir members (fs ++ t.moved dir) =
      (unpack [] members t).map fun t ↦ fs ++ t.moved dir := by
  induction members generalizing t with
  | nil => rfl
  | cons m members ih =>
      rw [unpack, unpack, List.foldlM_cons, List.foldlM_cons, put_append_moved h, List.nil_append]
      cases put t m.1 m.2 with
      | none => rfl
      | some t' => exact ih

theorem under_append_moved (h : Apart dir fs) (p : List N) :
    under (dir ++ p) (fs ++ t.moved dir) = under p t := by
  have hfs : under (dir ++ p) fs = [] := by
    rw [under, List.filterMap_eq_nil_iff]
    intro f hf
    have hnone := (h.isPrefixOf hf p).1
    rw [← List.isSome_isPrefixOf?_eq_isPrefixOf, Option.isSome_eq_false_iff,
      Option.isNone_iff_eq_none] at hnone
    rw [hnone, Option.map_none]
  have hrest (f : List N × Option C) :
      (dir ++ p).isPrefixOf? (dir ++ f.1) = p.isPrefixOf? f.1 := by
    apply Option.ext
    intro r
    rw [List.isPrefixOf?_eq_some_iff_append_eq, List.isPrefixOf?_eq_some_iff_append_eq,
      List.append_assoc, List.append_cancel_left_eq]
  rw [under, List.filterMap_append, ← under, hfs, List.nil_append, moved, List.filterMap_map, under]
  congr 1
  funext f
  rw [Function.comp_apply, hrest]

theorem present_append_moved (h : Apart dir fs) (p : List N) :
    present (dir ++ p) (fs ++ t.moved dir) = present p t := by
  apply any_append_moved
  · intro f hf
    exact (h.isPrefixOf hf p).1
  · intro f _
    exact isPrefixOf_append dir p f.1

theorem content?_append_moved (h : Apart dir fs) (p : List N) :
    content? (dir ++ p) (fs ++ t.moved dir) = content? p t := by
  have hfs : fs.find? (fun f ↦ f.1 = dir ++ p) = none := by
    rw [List.find?_eq_none]
    intro f hf
    rw [decide_eq_true_eq]
    exact h.ne hf p
  rw [content?, List.find?_append, hfs, Option.none_or, moved, List.find?_map, content?]
  have hpath : ((fun f : List N × Option C ↦ decide (f.1 = dir ++ p)) ∘
      fun f : List N × Option C ↦ (dir ++ f.1, f.2)) = fun f ↦ decide (f.1 = p) := by
    funext f
    simp only [Function.comp_apply, List.append_cancel_left_eq]
  rw [hpath]
  cases t.find? fun f ↦ decide (f.1 = p) with
  | none => rfl
  | some f => rfl

end Unpack

end FileTree
