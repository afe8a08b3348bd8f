import Konative.Build.ClasspathExport
import Konative.Lib.FileTree

/-!
# The resources of the AARs

Step 1.5 of the build extracts every AAR and compiles its `res/` folder to a zip for
`aapt2 link`.  The directory and the zip are named after the AAR up to the first dot of its
file name, and an AAR is extracted over whatever is in its directory.  So the AARs stay apart
exactly if these names do, and none of them is empty beside another.

The manifest's package and the verdict of `aapt2 compile` are parameters.
-/

namespace Konative.Build

universe u v

variable {C : Type u} {P : Type v}

/-! ## The loop -/

/-- A `.aar` file, by its name and the members of the archive. -/
structure AarFile (C : Type u) where
  name : FileName
  members : FileTree FileName C

/-- What the loop asks of files. -/
structure Tools (C : Type u) (P : Type v) where
  /-- What is between the quotes of `package="..."` in a manifest, if it is there and CMake
  does not take it for false. -/
  package : C → Option P
  /-- Whether `aapt2 compile` ends with 0 on a `res/` folder. -/
  compiles : FileTree FileName C → Bool

/-- `get_filename_component(... NAME_WE)`: the name up to its first dot. -/
def nameWE (name : FileName) : FileName := name.takeWhile (· ≠ '.')

/-- `_aar_extract_dir`, below `_aapt2_extract_dir`. -/
def extractDir (name : FileName) : List FileName := [nameWE name].filter (· ≠ [])

/-- `_aapt2_compiled_zip`, below `_aapt2_compiled_dir`. -/
def compiledZip (name : FileName) : FileName := nameWE name ++ ".zip".toList

def manifest : List FileName := ["AndroidManifest.xml".toList]

def res : List FileName := ["res".toList]

/-- One call of `aapt2 compile`. -/
structure Compile (C : Type u) where
  aar : FileName
  input : FileTree FileName C
  output : FileName
deriving DecidableEq

/-- What the loop has done so far. -/
structure Loop (C : Type u) (P : Type v) where
  /-- What is in `_aapt2_extract_dir`. -/
  extracted : FileTree FileName C
  packages : List P
  compiles : List (Compile C)
  compiledZips : List FileName

/-- `file(MAKE_DIRECTORY)` and `file(ARCHIVE_EXTRACT)`. -/
def extract (dir : List FileName) (members fs : FileTree FileName C) :
    Option (FileTree FileName C) :=
  (fs.makeDir dir).bind (FileTree.unpack dir members)

/-- The body of the loop, or nothing where it ends with an error. -/
def compileAar (x : Tools C P) (st : Loop C P) (aar : AarFile C) : Option (Loop C P) :=
  let dir := extractDir aar.name
  (extract dir aar.members st.extracted).bind fun fs ↦
    ((FileTree.content? (dir ++ manifest) fs).bind x.package).bind fun package ↦
      if FileTree.present (dir ++ res) fs then
        let input := FileTree.under (dir ++ res) fs
        let zip := compiledZip aar.name
        if x.compiles input then
          some ⟨fs, st.packages ++ [package], st.compiles ++ [⟨aar.name, input, zip⟩],
            st.compiledZips ++ [zip]⟩
        else none
      else some ⟨fs, st.packages ++ [package], st.compiles, st.compiledZips⟩

/-- The loop over the AARs. -/
def compileAars (x : Tools C P) (aars : List (AarFile C)) : Option (Loop C P) :=
  aars.foldlM (compileAar x) ⟨[], [], [], []⟩

/-! ## An AAR by itself -/

namespace AarFile

/-- What is in an AAR, if it can be extracted. -/
def content (aar : AarFile C) : Option (FileTree FileName C) := extract [] aar.members []

def tree (aar : AarFile C) : FileTree FileName C := aar.content.getD []

/-- The AAR has a `res/` folder. -/
def hasRes (aar : AarFile C) : Bool := FileTree.present res aar.tree

/-- What is in it. -/
def resources (aar : AarFile C) : FileTree FileName C := FileTree.under res aar.tree

/-- The checks of the loop pass for the AAR by itself. -/
structure Accepted (x : Tools C P) (aar : AarFile C) : Prop where
  isSome_content : aar.content.isSome
  isSome_package : ((FileTree.content? manifest aar.tree).bind x.package).isSome
  compiles : aar.hasRes → x.compiles aar.resources

end AarFile

/-- The AARs with resources are linked once each, and unmixed. -/
structure Unmixed (aars : List (AarFile C)) (st : Loop C P) : Prop where
  /-- No AAR is extracted into the directory of another one, or into a part of it. -/
  own_dir : aars.Pairwise fun a b ↦
    ¬extractDir a.name <+: extractDir b.name ∧ ¬extractDir b.name <+: extractDir a.name
  /-- What is compiled for an AAR is what is in its `res/` folder. -/
  compiles : st.compiles = (aars.filter AarFile.hasRes).map fun a ↦
    ⟨a.name, a.resources, compiledZip a.name⟩
  /-- The zips to link are those of the AARs with a `res/` folder, -/
  compiledZips : st.compiledZips = (aars.filter AarFile.hasRes).map fun a ↦ compiledZip a.name
  /-- and they differ. -/
  nodup_compiledZips : st.compiledZips.Nodup

/-- The names up to the first dot differ, and none is empty beside another. -/
def Separate (aars : List (AarFile C)) : Prop :=
  aars.Pairwise fun a b ↦
    nameWE a.name ≠ nameWE b.name ∧ nameWE a.name ≠ [] ∧ nameWE b.name ≠ []

/-! ## Names and directories -/

theorem extractDir_of_nil {name : FileName} (h : nameWE name = []) : extractDir name = [] := by
  rw [extractDir, h]
  rfl

theorem extractDir_of_ne {name : FileName} (h : nameWE name ≠ []) :
    extractDir name = [nameWE name] := by
  simp [extractDir, h]

theorem apart_iff {m n : FileName} :
    (¬extractDir m <+: extractDir n ∧ ¬extractDir n <+: extractDir m) ↔
      nameWE m ≠ nameWE n ∧ nameWE m ≠ [] ∧ nameWE n ≠ [] := by
  by_cases hm : nameWE m = []
  · rw [extractDir_of_nil hm]
    simp [hm]
  by_cases hn : nameWE n = []
  · rw [extractDir_of_nil hn]
    simp [hn]
  rw [extractDir_of_ne hm, extractDir_of_ne hn]
  simp [hm, hn, eq_comm]

theorem compiledZip_ne {m n : FileName} (h : nameWE m ≠ nameWE n) : compiledZip m ≠ compiledZip n :=
  fun heq ↦ h (List.append_cancel_right heq)

/-! ## One turn of the loop -/

section Turn

open FileTree

variable {x : Tools C P} {st st' : Loop C P} {aar : AarFile C}

/-- In a directory that has nothing to do with what is there, an AAR finds itself only. -/
theorem extract_of_apart {dir : List FileName} {fs : FileTree FileName C} (h : Apart dir fs)
    (members : FileTree FileName C) :
    extract dir members fs = (extract [] members []).map fun t ↦ fs ++ t.moved dir := by
  have hdir := makeDir_append_moved (t := []) h []
  rw [moved, List.map_nil, List.append_nil, List.append_nil] at hdir
  rw [extract, hdir, extract]
  exact unpack_append_moved h members

/-- What one turn adds for an AAR whose content is `t`. -/
def Loop.add (st : Loop C P) (aar : AarFile C) (t : FileTree FileName C) (package : P) :
    Loop C P where
  extracted := st.extracted ++ t.moved (extractDir aar.name)
  packages := st.packages ++ [package]
  compiles := st.compiles ++ if present res t then
    [⟨aar.name, t.under res, compiledZip aar.name⟩] else []
  compiledZips := st.compiledZips ++ if present res t then [compiledZip aar.name] else []

theorem compileAar_of_apart (h : Apart (extractDir aar.name) st.extracted) :
    compileAar x st aar = aar.content.bind fun t ↦
      ((content? manifest t).bind x.package).bind fun package ↦
        if present res t = true ∧ x.compiles (t.under res) = false then none
        else some (st.add aar t package) := by
  rw [compileAar, extract_of_apart h, ← AarFile.content]
  cases aar.content with
  | none => rfl
  | some t =>
      simp only [Option.map_some, Option.bind_some, content?_append_moved h, present_append_moved h,
        under_append_moved h]
      congr 1
      funext package
      rw [Loop.add]
      cases present res t <;> cases x.compiles (t.under res) <;> simp

/-- A turn gets to its end if and only if the AAR is accepted by itself. -/
theorem compileAar_eq_some (h : Apart (extractDir aar.name) st.extracted) :
    compileAar x st aar = some st' ↔
      aar.Accepted x ∧ ∃ package, (content? manifest aar.tree).bind x.package = some package ∧
        st' = st.add aar aar.tree package := by
  rw [compileAar_of_apart h]
  constructor
  · intro hst
    obtain ⟨t, ht, hst⟩ := Option.bind_eq_some_iff.mp hst
    obtain ⟨package, hpackage, hst⟩ := Option.bind_eq_some_iff.mp hst
    have htree : aar.tree = t := by rw [AarFile.tree, ht, Option.getD_some]
    split at hst
    · cases hst
    · rename_i hcompiles
      refine ⟨⟨by rw [ht]; rfl, by rw [htree, hpackage]; rfl, ?_⟩, package, ?_, ?_⟩
      · intro hres
        rw [AarFile.hasRes, htree] at hres
        rw [AarFile.resources, htree]
        exact eq_true_of_ne_false fun hfalse ↦ hcompiles ⟨hres, hfalse⟩
      · rw [htree, hpackage]
      · rw [htree]
        exact (Option.some.inj hst).symm
  · rintro ⟨hacc, package, hpackage, rfl⟩
    obtain ⟨t, ht⟩ := Option.isSome_iff_exists.mp hacc.isSome_content
    have htree : aar.tree = t := by rw [AarFile.tree, ht, Option.getD_some]
    rw [htree] at hpackage
    rw [ht, Option.bind_some, hpackage, Option.bind_some, if_neg, htree]
    rintro ⟨hres, hfalse⟩
    have hcompiles := hacc.compiles
    rw [AarFile.hasRes, AarFile.resources, htree] at hcompiles
    rw [hcompiles hres] at hfalse
    cases hfalse

end Turn

/-! ## The whole loop -/

section Whole

open FileTree

variable {x : Tools C P} {aars : List (AarFile C)}

/-- What `aapt2 compile` is called for, and with what. -/
def expectedCompiles (aars : List (AarFile C)) : List (Compile C) :=
  (aars.filter AarFile.hasRes).map fun a ↦ ⟨a.name, a.resources, compiledZip a.name⟩

def expectedZips (aars : List (AarFile C)) : List FileName :=
  (aars.filter AarFile.hasRes).map fun a ↦ compiledZip a.name

theorem map_filter_hasRes_cons {β : Type*} (f : AarFile C → β) (a : AarFile C)
    (aars : List (AarFile C)) : ((a :: aars).filter AarFile.hasRes).map f =
      (if a.hasRes then [f a] else []) ++ (aars.filter AarFile.hasRes).map f := by
  rw [List.filter_cons]
  split
  · rfl
  · rfl

/-- The AARs that are still to come stay apart from what is there. -/
theorem apart_add {a : AarFile C} {st : Loop C P} (hsep : Separate (a :: aars))
    (hap : ∀ b ∈ a :: aars, Apart (extractDir b.name) st.extracted) (t : FileTree FileName C)
    (package : P) : ∀ b ∈ aars, Apart (extractDir b.name) (st.add a t package).extracted := by
  intro b hb
  obtain ⟨hab, hba⟩ := apart_iff.mpr ((List.pairwise_cons.mp hsep).1 b hb)
  exact (hap b (List.mem_cons_of_mem a hb)).append (apart_moved hba hab t)

/-- Where the AARs are apart and the loop gets to its end, each was accepted by itself and
compiled by itself. -/
theorem accepted_of_foldlM {st st' : Loop C P} (hsep : Separate aars)
    (hap : ∀ a ∈ aars, Apart (extractDir a.name) st.extracted)
    (h : aars.foldlM (compileAar x) st = some st') :
    (∀ a ∈ aars, a.Accepted x) ∧ st'.compiles = st.compiles ++ expectedCompiles aars ∧
      st'.compiledZips = st.compiledZips ++ expectedZips aars := by
  induction aars generalizing st with
  | nil =>
      cases h
      exact ⟨by simp, (List.append_nil _).symm, (List.append_nil _).symm⟩
  | cons a aars ih =>
      rw [List.foldlM_cons] at h
      obtain ⟨st₁, h₁, h₂⟩ := Option.bind_eq_some_iff.mp h
      obtain ⟨hacc, package, -, rfl⟩ := (compileAar_eq_some (hap a List.mem_cons_self)).mp h₁
      obtain ⟨haccs, hcompiles, hzips⟩ :=
        ih (List.pairwise_cons.mp hsep).2 (apart_add hsep hap a.tree package) h₂
      refine ⟨List.forall_mem_cons.mpr ⟨hacc, haccs⟩, ?_, ?_⟩
      · rw [hcompiles, expectedCompiles, expectedCompiles, map_filter_hasRes_cons,
          ← List.append_assoc]
        rfl
      · rw [hzips, expectedZips, expectedZips, map_filter_hasRes_cons, ← List.append_assoc]
        rfl

/-- And it does get there if each is accepted by itself. -/
theorem exists_foldlM (hsep : Separate aars) {st : Loop C P}
    (hap : ∀ a ∈ aars, Apart (extractDir a.name) st.extracted) (h : ∀ a ∈ aars, a.Accepted x) :
    ∃ st', aars.foldlM (compileAar x) st = some st' := by
  induction aars generalizing st with
  | nil => exact ⟨st, rfl⟩
  | cons a aars ih =>
      obtain ⟨ha, haars⟩ := List.forall_mem_cons.mp h
      obtain ⟨package, hpackage⟩ := Option.isSome_iff_exists.mp ha.isSome_package
      obtain ⟨st', hst'⟩ :=
        ih (List.pairwise_cons.mp hsep).2 (apart_add hsep hap a.tree package) haars
      refine ⟨st', ?_⟩
      rw [List.foldlM_cons, (compileAar_eq_some (hap a List.mem_cons_self)).mpr
        ⟨ha, package, hpackage, rfl⟩]
      exact hst'

theorem nodup_expectedZips (hsep : Separate aars) : (expectedZips aars).Nodup := by
  rw [expectedZips, List.nodup_iff_pairwise_ne, List.pairwise_map]
  exact (hsep.filter _).imp fun h ↦ compiledZip_ne h.1

/-- The loop keeps the AARs apart if and only if their names up to the first dot do. -/
theorem compileAars_unmixed_iff (x : Tools C P) (aars : List (AarFile C)) :
    (∃ st, compileAars x aars = some st ∧ Unmixed aars st) ↔
      Separate aars ∧ ∀ a ∈ aars, a.Accepted x := by
  have hap : ∀ a ∈ aars, Apart (extractDir a.name) ([] : FileTree FileName C) :=
    fun _ _ ↦ apart_nil
  constructor
  · rintro ⟨st, hst, h⟩
    have hsep : Separate aars := h.own_dir.imp apart_iff.mp
    exact ⟨hsep, (accepted_of_foldlM hsep hap hst).1⟩
  · rintro ⟨hsep, hacc⟩
    obtain ⟨st, hst⟩ : ∃ st, compileAars x aars = some st := exists_foldlM hsep hap hacc
    obtain ⟨-, hcompiles, hzips⟩ := accepted_of_foldlM hsep hap hst
    refine ⟨st, hst, ⟨hsep.imp apart_iff.mpr, hcompiles, hzips, ?_⟩⟩
    rw [hzips]
    exact nodup_expectedZips hsep

/-- Two versions of one library: the resources of the first are compiled again with those of
the second, to the same zip. -/
theorem not_unmixed_versions :
    ¬∃ st : Loop Nat Nat, compileAars ⟨some, fun _ ↦ true⟩
        [⟨"ui-1.0.aar".toList, [(manifest, some 0), (res ++ ["a.xml".toList], some 1)]⟩,
          ⟨"ui-1.1.aar".toList, [(manifest, some 0), (res ++ ["b.xml".toList], some 2)]⟩] = some st ∧
      Unmixed
        [⟨"ui-1.0.aar".toList, [(manifest, some 0), (res ++ ["a.xml".toList], some 1)]⟩,
          ⟨"ui-1.1.aar".toList, [(manifest, some 0), (res ++ ["b.xml".toList], some 2)]⟩] st := by
  rintro ⟨st, hst, h⟩
  have hcompiles : st.compiles =
      [⟨"ui-1.0.aar".toList, [(["a.xml".toList], some 1)], "ui-1.zip".toList⟩,
        ⟨"ui-1.1.aar".toList, [(["a.xml".toList], some 1), (["b.xml".toList], some 2)],
          "ui-1.zip".toList⟩] := by
    cases hst
    decide
  rw [h.compiles] at hcompiles
  revert hcompiles
  decide

end Whole

end Konative.Build
