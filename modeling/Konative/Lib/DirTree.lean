import Mathlib.Data.List.DropRight
import Mathlib.Logic.Function.Basic

/-!
# Paths and the directories they lead to

A path is a list of characters with a separator among them.  It is taken apart in two ways:
into its components, which is how it is followed from directory to directory, and into its
directory part and its file name, which is how a program that has the path of one file finds
another beside it.

A `DirTree` says where each component leads, be it a directory, a link or `..`, and which
entries each directory has.  Following a path depends on its components only, so two paths of
one directory may differ in the separators they end in.
-/

universe u v w

namespace Path

section Parts

variable {α : Type u} [DecidableEq α] (sep : α)

/-- What comes after the last separator. -/
def filename (p : List α) : List α := p.rtakeWhile (· ≠ sep)

/-- What comes before the file name, up to the last separator and with it. -/
def dirPart (p : List α) : List α := p.rdropWhile (· ≠ sep)

/-- The path without the separators it ends in. -/
def trimmed (p : List α) : List α := p.rdropWhile (· = sep)

/-- The path of the directory: the directory part without the separators it ends in, the first
of them where it is made of separators, and a path of separators only as it is. -/
def parentPath (p : List α) : List α :=
  if trimmed sep p = [] then p
  else if trimmed sep (dirPart sep p) = [] then (dirPart sep p).take 1
  else trimmed sep (dirPart sep p)

example : ["a//b", "//b", "b", "a/", "//"].map (String.ofList ∘ parentPath '/' ∘ String.toList) =
    ["a", "/", "", "a", "//"] := by decide

/-- The components, without the empty ones that repeated separators make. -/
def components (p : List α) : List (List α) := (p.splitOn sep).filter (· ≠ [])

end Parts

section Lemmas

variable {α : Type u} [DecidableEq α] {sep : α} {p s : List α}

theorem dirPart_append_filename (sep : α) (p : List α) : dirPart sep p ++ filename sep p = p :=
  List.rdropWhile_append_rtakeWhile

/-- A path without a separator is a bare file name. -/
theorem filename_of_dirPart_nil (h : dirPart sep p = []) : filename sep p = p := by
  have hp := dirPart_append_filename sep p
  rw [h, List.nil_append] at hp
  exact hp

/-- What is appended to a path without a separator goes into the file name. -/
theorem dirPart_append (h : sep ∉ s) : dirPart sep (p ++ s) = dirPart sep p := by
  induction s using List.reverseRecOn with
  | nil => rw [List.append_nil]
  | append_singleton s x ih =>
      rw [List.mem_append, List.mem_singleton, not_or] at h
      rw [← List.append_assoc, dirPart, List.rdropWhile_concat,
        if_pos (decide_eq_true (Ne.symm h.2))]
      exact ih h.1

theorem filename_append (h : sep ∉ s) : filename sep (p ++ s) = filename sep p ++ s := by
  have hs := dirPart_append_filename sep (p ++ s)
  rw [dirPart_append h] at hs
  refine List.append_cancel_left (hs.trans ?_)
  rw [← List.append_assoc, dirPart_append_filename]

theorem components_concat (p : List α) : components sep (p ++ [sep]) = components sep p := by
  have hsplit : (p ++ [sep]).splitOn sep = p.splitOn sep ++ [[]] := by
    rw [List.splitOn_append_cons_of_beq p [] (beq_self_eq_true sep), List.splitOn_nil]
  rw [components, hsplit, List.filter_append]
  exact List.append_nil _

/-- The separators at its end change nothing in the components of a path. -/
theorem components_trimmed (p : List α) : components sep (trimmed sep p) = components sep p := by
  induction p using List.reverseRecOn with
  | nil => rw [trimmed, List.rdropWhile_nil]
  | append_singleton p x ih =>
      by_cases hx : x = sep
      · subst hx
        rw [components_concat, ← ih, trimmed, trimmed, List.rdropWhile_concat,
          if_pos (decide_eq_true rfl)]
      · rw [trimmed, List.rdropWhile_concat, if_neg fun h ↦ hx (of_decide_eq_true h)]

theorem head?_trimmed (h : trimmed sep p ≠ []) : (trimmed sep p).head? = p.head? := by
  obtain ⟨r, hr⟩ := List.rdropWhile_prefix (· = sep) p
  change trimmed sep p ++ r = p at hr
  cases ht : trimmed sep p with
  | nil => exact absurd ht h
  | cons x xs => rw [← hr, ht]; rfl

/-- A path of separators only has no file name. -/
theorem dirPart_of_trimmed_nil (h : trimmed sep p = []) : dirPart sep p = p := by
  rw [trimmed, List.rdropWhile_eq_nil_iff] at h
  rw [dirPart, List.rdropWhile_eq_self_iff]
  intro hne
  have hlast := h _ (List.getLast_mem hne)
  simpa using hlast

/-- It leads nowhere but to the root, as its first separator does. -/
theorem components_take_of_trimmed_nil (h : trimmed sep p = []) (n : Nat) :
    components sep (p.take n) = components sep p := by
  have htake : trimmed sep (p.take n) = [] := by
    rw [trimmed, List.rdropWhile_eq_nil_iff] at h ⊢
    exact fun x hx ↦ h x (List.mem_of_mem_take hx)
  rw [← components_trimmed, htake, ← components_trimmed p, h]

theorem components_parentPath (p : List α) :
    components sep (parentPath sep p) = components sep (dirPart sep p) := by
  unfold parentPath
  split
  · rename_i h
    rw [dirPart_of_trimmed_nil h]
  · split
    · rename_i h
      exact components_take_of_trimmed_nil h 1
    · exact components_trimmed _

theorem head?_parentPath (p : List α) : (parentPath sep p).head? = (dirPart sep p).head? := by
  unfold parentPath
  split
  · rename_i h
    rw [dirPart_of_trimmed_nil h]
  · split
    · rw [List.head?_take, if_neg Nat.one_ne_zero]
    · rename_i h
      exact head?_trimmed h

theorem parentPath_eq_nil_iff : parentPath sep p = [] ↔ dirPart sep p = [] := by
  rw [← List.head?_eq_none_iff, head?_parentPath, List.head?_eq_none_iff]

end Lemmas

end Path

/-! ## Directories -/

/-- Directories, where the components of a path lead, and the entries of each directory in
the order in which it is read. -/
structure DirTree (D : Type v) (α : Type u) where
  root : D
  cwd : D
  child : D → List α → Option D
  entries : D → List (List α)

namespace DirTree

open Path

variable {D : Type v} {α : Type u} [DecidableEq α]

/-- The directory a path leads to; the empty path leads nowhere from where it starts. -/
def walk (t : DirTree D α) (sep : α) (p : List α) : Option D :=
  (components sep p).foldlM t.child (if p.head? = some sep then t.root else t.cwd)

/-- The directory that is opened under a path.  No directory has the empty path. -/
def openDir (t : DirTree D α) (sep : α) (p : List α) : Option D :=
  if p = [] then none else t.walk sep p

/-- The directory a file is in, and its name there. -/
def locate (t : DirTree D α) (sep : α) (p : List α) : Option (D × List α) :=
  (t.walk sep (dirPart sep p)).map fun d ↦ (d, filename sep p)

section Walk

variable (t : DirTree D α) {sep : α} {p s : List α}

theorem walk_parentPath (p : List α) :
    t.walk sep (parentPath sep p) = t.walk sep (dirPart sep p) := by
  rw [walk, walk, components_parentPath, head?_parentPath]

theorem walk_nil : t.walk sep [] = some t.cwd := rfl

/-- A bare file name has no directory to open. -/
theorem openDir_parentPath_of_bare (h : dirPart sep p = []) :
    t.openDir sep (parentPath sep p) = none := if_pos (parentPath_eq_nil_iff.mpr h)

theorem openDir_parentPath (h : dirPart sep p ≠ []) :
    t.openDir sep (parentPath sep p) = t.walk sep (dirPart sep p) := by
  rw [openDir, if_neg fun hp ↦ h (parentPath_eq_nil_iff.mp hp), walk_parentPath]

/-- What is appended to the path of a file stays in its directory. -/
theorem locate_append (h : sep ∉ s) :
    t.locate sep (p ++ s) = (t.walk sep (dirPart sep p)).map fun d ↦ (d, filename sep p ++ s) := by
  rw [locate, dirPart_append h, filename_append h]

end Walk

/-! ## Removing entries -/

section Remove

variable [DecidableEq D]

def remove (t : DirTree D α) (d : D) (n : List α) : DirTree D α :=
  { t with entries := Function.update t.entries d ((t.entries d).filter (· ≠ n)) }

/-- Removing an entry takes it out of its directory, and nothing else out of any. -/
theorem mem_entries_remove {t : DirTree D α} {d d' : D} {m n : List α} :
    m ∈ (t.remove d n).entries d' ↔ m ∈ t.entries d' ∧ ¬ (d' = d ∧ m = n) := by
  unfold remove
  by_cases hd : d' = d
  · subst hd
    simp only [Function.update_self, List.mem_filter, decide_eq_true_eq, true_and]
  · simp only [Function.update_of_ne hd, hd, false_and, not_false_eq_true, and_true]

end Remove

/-! ## Iterating over a directory -/

/-- The loop over the entries of a directory.  The iterator is advanced after each entry, the
`i`-th time as `advances i` says, and throws where it cannot be.  What is returned is whether
the loop came to its end, and the state it left. -/
def forEntries {σ : Type w} (advances : Nat → Bool) (body : σ → List α → σ) :
    Nat → List (List α) → σ → Bool × σ
  | _, [], s => (true, s)
  | i, e :: es, s =>
      if advances i then forEntries advances body (i + 1) es (body s e) else (false, body s e)

section Loop

omit [DecidableEq α]

variable {σ : Type w} {advances : Nat → Bool} {body : σ → List α → σ} {i : Nat}
  {es : List (List α)} {s : σ}

/-- The loop comes to its end when every advance succeeds, the one to the end among them. -/
theorem forEntries_fst_iff :
    (forEntries advances body i es s).1 = true ↔ ∀ j < es.length, advances (i + j) = true := by
  induction es generalizing i s with
  | nil => exact ⟨fun _ j hj ↦ absurd hj (Nat.not_lt_zero j), fun _ ↦ rfl⟩
  | cons e es ih =>
      unfold forEntries
      split
      · rename_i hi
        rw [ih]
        constructor
        · rintro h (_ | j) hj
          · exact hi
          · rw [Nat.add_comm j, ← Nat.add_assoc]
            exact h j (Nat.lt_of_succ_lt_succ hj)
        · intro h j hj
          rw [Nat.add_assoc, Nat.add_comm 1]
          exact h (j + 1) (Nat.succ_lt_succ hj)
      · rename_i hi
        constructor
        · rintro ⟨⟩
        · intro h
          exact absurd (h 0 (Nat.succ_pos _)) hi

/-- A loop that comes to its end has visited every entry. -/
theorem forEntries_snd (h : (forEntries advances body i es s).1 = true) :
    (forEntries advances body i es s).2 = es.foldl body s := by
  induction es generalizing i s with
  | nil => rfl
  | cons e es ih =>
      unfold forEntries at h ⊢
      split at h
      · rename_i hi
        rw [if_pos hi]
        exact ih h
      · cases h

/-- What every visit keeps, the loop keeps, however it ends. -/
theorem forEntries_keeps {P : σ → Prop} (hbody : ∀ s e, P s → P (body s e)) (hs : P s) :
    P (forEntries advances body i es s).2 := by
  induction es generalizing i s with
  | nil => exact hs
  | cons e es ih =>
      unfold forEntries
      split
      · exact ih (hbody s e hs)
      · exact hbody s e hs

end Loop

end DirTree
