import Konative.Lib.Assoc

/-!
# The exported classpath

`exportClasspathJars` copies the `classes.jar` of every resolved AAR and every resolved plain
jar to one directory.  A content that was copied before is left out, whatever the names are;
but a copy takes the place of one of the same name, whatever the contents are.  So the export
is complete exactly if no two different contents that are to stay go by one name.
-/

namespace Konative.Build

open Assoc

universe u v

/-- The name of a file, without the directory it is in. -/
abbrev FileName := List Char

/-- `File.nameWithoutExtension`: what is before the last dot. -/
def nameWithoutExtension (name : FileName) : FileName :=
  if '.' ∈ name then ((name.reverse.dropWhile (· ≠ '.')).drop 1).reverse else name

/-- `File.extension`: what is after the last dot. -/
def extension (name : FileName) : FileName :=
  if '.' ∈ name then (name.reverse.takeWhile (· ≠ '.')).reverse else []

variable {C : Type u} {H : Type v}

/-- A resolved `.aar` file, by its name and the content of its `classes.jar`. -/
structure Aar (C : Type u) where
  name : FileName
  classesJar : Option C

/-- A resolved plain jar. -/
structure PlainJar (C : Type u) where
  name : FileName
  content : C

/-- What is asked of a content. -/
structure Files (C : Type u) (H : Type v) where
  /-- Whether a zip archive has an entry; `none` is a content that is not a zip archive, for
  which `ZipFile` throws. -/
  hasEntries : C → Option Bool
  sha256 : C → H

/-- What the task keeps while it runs. -/
structure Export (C : Type u) (H : Type v) where
  seenHashes : List H
  outDir : List (FileName × C)

/-- `it.name.startsWith("kotlin-stdlib")`. -/
def PlainJar.isStdlib (jar : PlainJar C) : Bool := "kotlin-stdlib".toList.isPrefixOf jar.name

section Task

variable [DecidableEq H] (x : Files C H)

/-- Copies a content to a name, unless it was seen before. -/
def Export.copyUnseen (st : Export C H) (name : FileName) (content : C) : Export C H :=
  if x.sha256 content ∈ st.seenHashes then st
  else ⟨x.sha256 content :: st.seenHashes, insertOrAssign name content st.outDir⟩

/-- The first loop, for one AAR. -/
def exportAar (st : Export C H) (aar : Aar C) : Option (Export C H) :=
  match aar.classesJar with
  | none => some st
  | some classesJar => (x.hasEntries classesJar).map fun hasRealEntries ↦
      if hasRealEntries then
        st.copyUnseen x (nameWithoutExtension aar.name ++ ".jar".toList) classesJar
      else st

/-- The second loop. -/
def exportPlainJars (st : Export C H) (jars : List (PlainJar C)) : Export C H :=
  (jars.filter fun jar ↦ !jar.isStdlib).foldl (fun st jar ↦ st.copyUnseen x jar.name jar.content) st

/-- The cleanup pass: every file with the extension `jar` is opened, and deleted if it is an
empty archive. -/
def deleteEmptyJars (files : List (FileName × C)) : Option (List (FileName × C)) :=
  if ∃ f ∈ files, extension f.1 = "jar".toList ∧ x.hasEntries f.2 = none then none
  else some (files.filter fun f ↦ !(extension f.1 = "jar".toList ∧ x.hasEntries f.2 = some false))

/-- `doLast`: the files of the output directory, if nothing throws. -/
def exportClasspathJars (aars : List (Aar C)) (jars : List (PlainJar C)) :
    Option (List (FileName × C)) :=
  (aars.foldlM (exportAar x) ⟨[], []⟩).bind fun st ↦
    deleteEmptyJars x (exportPlainJars x st jars).outDir

end Task

/-! ## What should be exported -/

section Spec

variable (x : Files C H) (aars : List (Aar C)) (jars : List (PlainJar C))

/-- The contents the task may compare. -/
def inputs : List C := aars.filterMap Aar.classesJar ++ jars.map PlainJar.content

/-- The non-empty `classes.jar` entries, and the non-empty plain jars other than those of the
standard library. -/
def wanted : List C :=
  (aars.filterMap Aar.classesJar ++
    (jars.filter fun jar ↦ !jar.isStdlib).map PlainJar.content).filter
      fun c ↦ x.hasEntries c = some true

/-- Every wanted content is in one file, and there is no other file. -/
structure Exported [DecidableEq C] (files : List (FileName × C)) : Prop where
  one : ∀ c ∈ wanted x aars jars, (files.map Prod.snd).count c = 1
  only : ∀ f ∈ files, f.2 ∈ wanted x aars jars

/-! ## The copies that are made -/

/-- What the first loop copies of an AAR, if it is new. -/
def Aar.copies (aar : Aar C) : List (FileName × C) :=
  (aar.classesJar.filter fun c ↦ x.hasEntries c = some true).toList.map fun c ↦
    (nameWithoutExtension aar.name ++ ".jar".toList, c)

/-- What both loops copy, if it is new. -/
def copies : List (FileName × C) :=
  aars.flatMap (Aar.copies x) ++
    (jars.filter fun jar ↦ !jar.isStdlib).map fun jar ↦ (jar.name, jar.content)

/-- Every `classes.jar` is a zip archive. -/
def Archives : Prop := ∀ aar ∈ aars, ∀ c ∈ aar.classesJar, x.hasEntries c ≠ none

end Spec

section Copies

variable {x : Files C H} {aars : List (Aar C)} {jars : List (PlainJar C)} {c : C}

theorem mem_copies {p : FileName × C} {aar : Aar C} :
    p ∈ aar.copies x ↔ aar.classesJar = some p.2 ∧ x.hasEntries p.2 = some true ∧
      p.1 = nameWithoutExtension aar.name ++ ".jar".toList := by
  rcases p with ⟨n, c⟩
  rw [Aar.copies, List.mem_map]
  constructor
  · rintro ⟨c', hc', heq⟩
    cases heq
    rw [Option.mem_toList, Option.filter_eq_some_iff] at hc'
    exact ⟨hc'.1, of_decide_eq_true hc'.2, rfl⟩
  · rintro ⟨hc, hentries, rfl⟩
    refine ⟨c, ?_, rfl⟩
    rw [Option.mem_toList, Option.filter_eq_some_iff]
    exact ⟨hc, decide_eq_true hentries⟩

theorem mem_contents_copies :
    c ∈ (copies x aars jars).map Prod.snd ↔
      (∃ aar ∈ aars, aar.classesJar = some c ∧ x.hasEntries c = some true) ∨
        ∃ jar ∈ jars, jar.isStdlib = false ∧ jar.content = c := by
  rw [copies, List.map_append, List.mem_append, List.map_map]
  refine or_congr ?_ ?_
  · constructor
    · intro h
      obtain ⟨p, hp, rfl⟩ := List.mem_map.mp h
      obtain ⟨aar, haar, hp⟩ := List.mem_flatMap.mp hp
      exact ⟨aar, haar, (mem_copies.mp hp).1, (mem_copies.mp hp).2.1⟩
    · rintro ⟨aar, haar, hc, hentries⟩
      have hp : (nameWithoutExtension aar.name ++ ".jar".toList, c) ∈ aar.copies x :=
        mem_copies.mpr ⟨hc, hentries, rfl⟩
      exact List.mem_map.mpr ⟨_, List.mem_flatMap.mpr ⟨aar, haar, hp⟩, rfl⟩
  · simp [and_assoc]

theorem mem_inputs_of_mem_copies (h : c ∈ (copies x aars jars).map Prod.snd) :
    c ∈ inputs aars jars := by
  rcases mem_contents_copies.mp h with ⟨aar, haar, hc, -⟩ | ⟨jar, hjar, -, rfl⟩
  · exact List.mem_append_left _ (List.mem_filterMap.mpr ⟨aar, haar, hc⟩)
  · exact List.mem_append_right _ (List.mem_map_of_mem hjar)

theorem mem_wanted :
    c ∈ wanted x aars jars ↔
      c ∈ (copies x aars jars).map Prod.snd ∧ x.hasEntries c = some true := by
  rw [wanted, List.mem_filter, decide_eq_true_eq, mem_contents_copies, List.mem_append,
    List.mem_filterMap, List.mem_map]
  refine and_congr_left fun hentries ↦ or_congr ?_ ?_
  · simp [hentries]
  · simp [and_assoc]

variable [DecidableEq H]

/-- Copying one after the other what is new. -/
def Export.copyAll (x : Files C H) (st : Export C H) (l : List (FileName × C)) : Export C H :=
  l.foldl (fun st p ↦ st.copyUnseen x p.1 p.2) st

theorem exportAar_of_archive {aar : Aar C} (h : ∀ c ∈ aar.classesJar, x.hasEntries c ≠ none)
    (st : Export C H) : exportAar x st aar = some (st.copyAll x (aar.copies x)) := by
  rw [exportAar, Aar.copies]
  cases hjar : aar.classesJar with
  | none => rfl
  | some c =>
      cases hc : x.hasEntries c with
      | none => exact absurd hc (h c hjar)
      | some real =>
          cases real with
          | false => simp [hc, Option.filter, Export.copyAll]
          | true => simp [hc, Option.filter, Export.copyAll]

theorem foldlM_exportAar (h : Archives x aars) (st : Export C H) :
    aars.foldlM (exportAar x) st = some (st.copyAll x (aars.flatMap (Aar.copies x))) := by
  induction aars generalizing st with
  | nil => rfl
  | cons aar aars ih =>
      obtain ⟨haar, haars⟩ := List.forall_mem_cons.mp h
      rw [List.foldlM_cons, exportAar_of_archive haar, Option.bind_eq_bind, Option.bind_some,
        ih haars, List.flatMap_cons, Export.copyAll, Export.copyAll, Export.copyAll,
        List.foldl_append]

theorem archives_of_foldlM {st st' : Export C H} (h : aars.foldlM (exportAar x) st = some st') :
    Archives x aars := by
  induction aars generalizing st with
  | nil => exact fun aar haar ↦ absurd haar List.not_mem_nil
  | cons aar aars ih =>
      rw [List.foldlM_cons] at h
      obtain ⟨st₁, h₁, h₂⟩ := Option.bind_eq_some_iff.mp h
      refine List.forall_mem_cons.mpr ⟨?_, ih h₂⟩
      intro c hjar hc
      rw [exportAar, Option.mem_def.mp hjar] at h₁
      change (x.hasEntries c).map _ = some st₁ at h₁
      rw [hc] at h₁
      cases h₁

/-- What ends up in the output directory before the cleanup pass. -/
theorem copyAll_outDir [DecidableEq C] {seen : List C} {l : List (FileName × C)}
    (hsha : Set.InjOn x.sha256 {c | c ∈ seen ∨ c ∈ l.map Prod.snd}) (dir : List (FileName × C)) :
    (Export.copyAll x ⟨seen.map x.sha256, dir⟩ l).outDir =
      insertAll Prod.fst Prod.snd (firsts seen l) dir := by
  induction l generalizing seen dir with
  | nil => rfl
  | cons p l ih =>
      have hp : p.2 ∈ {c | c ∈ seen ∨ c ∈ (p :: l).map Prod.snd} := .inr List.mem_cons_self
      -- the hash was seen if and only if the content was
      have hseen : x.sha256 p.2 ∈ seen.map x.sha256 ↔ p.2 ∈ seen := by
        constructor
        · intro h
          obtain ⟨c, hc, heq⟩ := List.mem_map.mp h
          rwa [← hsha (.inl hc) hp heq]
        · exact List.mem_map_of_mem
      rw [Export.copyAll, List.foldl_cons, ← Export.copyAll, Export.copyUnseen, firsts]
      by_cases h : p.2 ∈ seen
      · rw [if_pos (hseen.mpr h), if_pos h]
        exact ih (hsha.mono fun c hc ↦ hc.imp_right (List.mem_cons_of_mem _)) dir
      · rw [if_neg (mt hseen.mp h), if_neg h, insertAll_cons]
        have hrest : Set.InjOn x.sha256 {c | c ∈ p.2 :: seen ∨ c ∈ l.map Prod.snd} := by
          apply hsha.mono
          rintro c (hc | hc)
          · rcases List.mem_cons.mp hc with rfl | hc
            · exact hp
            · exact .inl hc
          · exact .inr (List.mem_cons_of_mem _ hc)
        exact ih hrest _

end Copies

/-! ## When the export is complete -/

section Complete

variable [DecidableEq C] {x : Files C H} {aars : List (Aar C)} {jars : List (PlainJar C)}

/-- The copies of contents that were not copied before. -/
def firstCopies (x : Files C H) (aars : List (Aar C)) (jars : List (PlainJar C)) :
    List (FileName × C) :=
  firsts [] (copies x aars jars)

/-- No content that should stay loses its name to another one. -/
structure NoClash (x : Files C H) (aars : List (Aar C)) (jars : List (PlainJar C)) : Prop where
  archives : Archives x aars
  /-- No first copy of a non-empty archive is followed by one of its name. -/
  wanted : ∀ p ∈ firstCopies x aars jars, x.hasEntries p.2 = some true →
    IsLast Prod.fst (firstCopies x aars jars) p
  /-- A first copy of anything else is, or the cleanup pass deletes it. -/
  unwanted : ∀ p ∈ firstCopies x aars jars, x.hasEntries p.2 ≠ some true →
    ¬IsLast Prod.fst (firstCopies x aars jars) p ∨
      extension p.1 = "jar".toList ∧ x.hasEntries p.2 = some false

/-- The output directory before the cleanup pass. -/
def copied (x : Files C H) (aars : List (Aar C)) (jars : List (PlainJar C)) :
    List (FileName × C) :=
  insertAll Prod.fst Prod.snd (firstCopies x aars jars) []

theorem mem_copied {f : FileName × C} :
    f ∈ copied x aars jars ↔ IsLast Prod.fst (firstCopies x aars jars) f := by
  rcases f with ⟨n, c⟩
  rw [copied, mem_insertAll]
  constructor
  · rintro (⟨p, hp, rfl, rfl⟩ | ⟨h, -⟩)
    · exact hp
    · cases h
  · intro h
    exact .inl ⟨_, h, rfl, rfl⟩

theorem exportClasspathJars_eq [DecidableEq H]
    (hsha : Set.InjOn x.sha256 {c | c ∈ inputs aars jars}) (h : Archives x aars) :
    exportClasspathJars x aars jars = deleteEmptyJars x (copied x aars jars) := by
  have hplain (st : Export C H) : exportPlainJars x st jars =
      st.copyAll x ((jars.filter fun jar ↦ !jar.isStdlib).map fun jar ↦ (jar.name, jar.content)) := by
    rw [exportPlainJars, Export.copyAll, List.foldl_map]
  rw [exportClasspathJars, foldlM_exportAar h, Option.bind_some, hplain, Export.copyAll,
    Export.copyAll, ← List.foldl_append, ← copies, ← Export.copyAll]
  congr 1
  have hcopies : Set.InjOn x.sha256 {c | c ∈ [] ∨ c ∈ (copies x aars jars).map Prod.snd} := by
    apply hsha.mono
    rintro c (hc | hc)
    · cases hc
    · exact mem_inputs_of_mem_copies hc
  exact copyAll_outDir hcopies []

omit [DecidableEq C] in
theorem mem_deleteEmptyJars {files files' : List (FileName × C)}
    (h : deleteEmptyJars x files = some files') {f : FileName × C} :
    f ∈ files' ↔ f ∈ files ∧ ¬(extension f.1 = "jar".toList ∧ x.hasEntries f.2 = some false) := by
  unfold deleteEmptyJars at h
  split at h
  · cases h
  · cases h
    rw [List.mem_filter, Bool.not_eq_true', decide_eq_false_iff_not]

/-- A name that stays stands for what should stay. -/
theorem NoClash.hasEntries_of_mem (h : NoClash x aars jars) {f : FileName × C}
    (hf : f ∈ copied x aars jars)
    (hkept : ¬(extension f.1 = "jar".toList ∧ x.hasEntries f.2 = some false)) :
    x.hasEntries f.2 = some true := by
  have hlast := mem_copied.mp hf
  by_contra hentries
  rcases h.unwanted f hlast.mem hentries with hover | hdeleted
  · exact hover hlast
  · exact hkept hdeleted

theorem NoClash.deleteEmptyJars_copied (h : NoClash x aars jars) :
    ∃ files, deleteEmptyJars x (copied x aars jars) = some files := by
  unfold deleteEmptyJars
  split
  · rename_i hthrow
    obtain ⟨f, hf, -, hnone⟩ := hthrow
    have htrue : x.hasEntries f.2 = some true := by
      refine h.hasEntries_of_mem hf ?_
      rintro ⟨-, hfalse⟩
      rw [hnone] at hfalse
      cases hfalse
    rw [hnone] at htrue
    cases htrue
  · exact ⟨_, rfl⟩

theorem exported_of_noClash (h : NoClash x aars jars) {files : List (FileName × C)}
    (hfiles : deleteEmptyJars x (copied x aars jars) = some files) :
    Exported x aars jars files := by
  have hnodup : (files.map Prod.snd).Nodup := by
    unfold deleteEmptyJars at hfiles
    split at hfiles
    · cases hfiles
    · cases hfiles
      exact nodup_insertAll_firsts.sublist (List.filter_sublist.map Prod.snd)
  constructor
  · intro c hc
    obtain ⟨hmem, hentries⟩ := mem_wanted.mp hc
    obtain ⟨p, hp, rfl⟩ := List.mem_map.mp (mem_map_firsts.mpr ⟨List.not_mem_nil, hmem⟩)
    have hlast := h.wanted p hp hentries
    refine List.count_eq_one_of_mem hnodup (List.mem_map_of_mem ?_)
    refine (mem_deleteEmptyJars hfiles).mpr ⟨mem_copied.mpr hlast, ?_⟩
    rintro ⟨-, hempty⟩
    rw [hentries] at hempty
    cases hempty
  · intro f hf
    obtain ⟨hcopied, hkept⟩ := (mem_deleteEmptyJars hfiles).mp hf
    refine mem_wanted.mpr ⟨?_, h.hasEntries_of_mem hcopied hkept⟩
    exact List.mem_map_of_mem (firsts_subset (mem_copied.mp hcopied).mem)

theorem noClash_of_exported (harch : Archives x aars) {files : List (FileName × C)}
    (hfiles : deleteEmptyJars x (copied x aars jars) = some files)
    (h : Exported x aars jars files) : NoClash x aars jars := by
  constructor
  · exact harch
  · intro p hp hentries
    have hwanted : p.2 ∈ wanted x aars jars :=
      mem_wanted.mpr ⟨List.mem_map_of_mem (firsts_subset hp), hentries⟩
    -- the one file with this content is the copy itself, so the copy is still there
    have hcount : 0 < (files.map Prod.snd).count p.2 := by
      rw [h.one p.2 hwanted]
      exact Nat.one_pos
    obtain ⟨f, hf, hcontent⟩ := List.mem_map.mp (List.count_pos_iff.mp hcount)
    have hlast := mem_copied.mp ((mem_deleteEmptyJars hfiles).mp hf).1
    rwa [← List.inj_on_of_nodup_map nodup_firsts hlast.mem hp hcontent]
  · intro p hp hentries
    by_cases hlast : IsLast Prod.fst (firstCopies x aars jars) p
    · refine .inr (by_contra fun hkept ↦ ?_)
      have hf : p ∈ files := (mem_deleteEmptyJars hfiles).mpr ⟨mem_copied.mpr hlast, hkept⟩
      exact hentries (mem_wanted.mp (h.only p hf)).2
    · exact .inl hlast

/-- The export ends with exactly the files it should end with if and only if no content that
should stay loses its name. -/
theorem exportClasspathJars_exported_iff [DecidableEq H]
    (hsha : Set.InjOn x.sha256 {c | c ∈ inputs aars jars}) :
    (∃ files, exportClasspathJars x aars jars = some files ∧ Exported x aars jars files) ↔
      NoClash x aars jars := by
  constructor
  · rintro ⟨files, hrun, h⟩
    have harch : Archives x aars := by
      obtain ⟨st, hst, -⟩ := Option.bind_eq_some_iff.mp hrun
      exact archives_of_foldlM hst
    rw [exportClasspathJars_eq hsha harch] at hrun
    exact noClash_of_exported harch hrun h
  · intro h
    rw [exportClasspathJars_eq hsha h.archives]
    obtain ⟨files, hfiles⟩ := h.deleteEmptyJars_copied
    exact ⟨files, hfiles, exported_of_noClash h hfiles⟩

/-! Where all contents are archives and all plain jars are named as such, only the names of
non-empty ones matter. -/

omit [DecidableEq C] in
theorem extension_jar (name : FileName) : extension (name ++ ".jar".toList) = "jar".toList := by
  have hdot : '.' ∈ name ++ ".jar".toList := List.mem_append_right name (by decide)
  rw [extension, if_pos hdot, List.reverse_append]
  rfl

theorem noClash_iff (harch : ∀ c, x.hasEntries c ≠ none)
    (hjars : ∀ jar ∈ jars, extension jar.name = "jar".toList) :
    NoClash x aars jars ↔ ∀ p ∈ firstCopies x aars jars, x.hasEntries p.2 = some true →
      IsLast Prod.fst (firstCopies x aars jars) p := by
  constructor
  · exact NoClash.wanted
  · intro h
    refine ⟨fun aar _ c _ ↦ harch c, h, ?_⟩
    intro p hp hentries
    -- every file of the output directory has the extension
    have hext : extension p.1 = "jar".toList := by
      rcases List.mem_append.mp (firsts_subset hp) with hp | hp
      · obtain ⟨aar, -, hp⟩ := List.mem_flatMap.mp hp
        rw [(mem_copies.mp hp).2.2, extension_jar]
      · obtain ⟨jar, hjar, rfl⟩ := List.mem_map.mp hp
        exact hjars jar (List.mem_of_mem_filter hjar)
    refine .inr ⟨hext, ?_⟩
    cases hc : x.hasEntries p.2 with
    | none => exact absurd hc (harch p.2)
    | some real =>
        cases real with
        | false => rfl
        | true => exact absurd hc hentries

/-- The case for which the contents are compared: the same `classes.jar` in two AARs. -/
theorem exportClasspathJars_exported_print :
    ∃ files, exportClasspathJars (⟨fun _ ↦ some true, id⟩ : Files Nat Nat)
        [⟨"print-1.0.0.aar".toList, some 1⟩, ⟨"classes.aar".toList, some 1⟩]
        [⟨"coroutines.jar".toList, 2⟩, ⟨"kotlin-stdlib-2.0.jar".toList, 3⟩] = some files ∧
      Exported (⟨fun _ ↦ some true, id⟩ : Files Nat Nat)
        [⟨"print-1.0.0.aar".toList, some 1⟩, ⟨"classes.aar".toList, some 1⟩]
        [⟨"coroutines.jar".toList, 2⟩, ⟨"kotlin-stdlib-2.0.jar".toList, 3⟩] files := by
  refine (exportClasspathJars_exported_iff (Set.injOn_id _)).mpr ?_
  constructor
  · intro aar haar c hc h
    cases h
  · intro p hp hentries
    change p ∈ [("print-1.0.0.jar".toList, 1), ("coroutines.jar".toList, 2)] at hp
    show IsLast Prod.fst [("print-1.0.0.jar".toList, 1), ("coroutines.jar".toList, 2)] p
    rcases List.mem_pair.mp hp with rfl | rfl
    · exact ⟨[], _, rfl, by decide⟩
    · exact ⟨[_], [], rfl, by decide⟩
  · intro p hp hentries
    exact absurd rfl hentries

/-- Two AARs of one name: the first of their two jars is gone. -/
theorem not_exported_classes :
    ¬∃ files, exportClasspathJars (⟨fun _ ↦ some true, id⟩ : Files Nat Nat)
        [⟨"classes.aar".toList, some 1⟩, ⟨"classes.aar".toList, some 2⟩] [] = some files ∧
      Exported (⟨fun _ ↦ some true, id⟩ : Files Nat Nat)
        [⟨"classes.aar".toList, some 1⟩, ⟨"classes.aar".toList, some 2⟩] [] files := by
  rintro ⟨files, hrun, h⟩
  have hfiles : files = [("classes.jar".toList, 2)] := (Option.some.inj hrun).symm
  subst hfiles
  have hone := h.one 1 (by decide)
  cases hone

end Complete

end Konative.Build
