import Konative.Build.ClasspathExport
import Konative.Lib.ArgFile

/-!
# The files of arguments

The script that makes the dex gives `kotlinc` and `r8` their paths in files.  `kotlinc` reads
its file as programs of the JDK do, so what may hold a blank is written between quotes; `r8`
reads its own a path a line, and nothing is quoted.  The jars are written to both, but in
another form: one argument with the host's path separator between them, and a line each.
Neither program is part of the repository: the formats they read are the ones that the comments
of the script document.

Both programs find what was meant, and the jars the sources are compiled against are the ones
that are dexed, if and only if no path has the separator in it (`reads_alike`).
-/

namespace Konative.Build

open ArgFile

/-- What `KonativeCompileKotlinDex.cmake` writes to the two files. -/
structure DexBuild where
  win32 : Bool
  composePlugin : List Char
  kotlinStdlibJar : List Char
  androidJar : List Char
  /-- `_classpath_jars`, as `file(GLOB ...)` lists them. -/
  classpathJars : List (List Char)
  sources : List (List Char)
  classesDir : List Char
  /-- `_class_files`, once the `R` classes are there. -/
  classFiles : List (List Char)

namespace DexBuild

variable (b : DexBuild)

/-- `_kotlinc_classpath_sep`. -/
def classpathSep : Char := if b.win32 then ';' else ':'

/-- `_kotlinc_classpath`. -/
def kotlincClasspath : List Char :=
  b.classpathJars.flatMap (fun jar ↦ jar ++ [b.classpathSep]) ++ b.androidJar

/-- `_kotlinc_argfile`. -/
def kotlincArgfile : List Char :=
  "-jvm-target\n1.8\n-Xcompiler-plugin=\"".toList ++ b.composePlugin ++
    "\"\n-classpath\n\"".toList ++ b.kotlincClasspath ++ "\"\n-d\n\"".toList ++ b.classesDir ++
    "\"\n".toList ++ b.sources.flatMap fun src ↦ "\"".toList ++ src ++ "\"\n".toList

/-- `_class_files_argfile`. -/
def classFilesArgfile : List Char :=
  b.classFiles.flatMap (fun file ↦ file ++ ['\n']) ++ (b.kotlinStdlibJar ++ ['\n']) ++
    b.classpathJars.flatMap fun jar ↦ jar ++ ['\n']

/-- The arguments of `kotlinc`, with this for its classpath. -/
def kotlincArguments (classpath : List Char) : List (List Char) :=
  ["-jvm-target".toList, "1.8".toList, "-Xcompiler-plugin=".toList ++ b.composePlugin,
    "-classpath".toList, classpath, "-d".toList, b.classesDir] ++ b.sources

end DexBuild

/-- A path for each line of a file, as it stands there: the "raw one-path-per-line read with NO
quote-stripping at all" that the script says `r8` does. -/
def pathLines (file : List Char) : List (List Char) :=
  let lines := file.splitOn '\n'
  if lines.getLast? = some [] then lines.dropLast else lines

/-! ## The file of kotlinc -/

namespace DexBuild

variable {b : DexBuild}

/-- The lines, a piece at a time. -/
def kotlincLines (b : DexBuild) : List (List Piece) :=
  [[.bare "-jvm-target".toList], [.bare "1.8".toList],
    [.bare "-Xcompiler-plugin=".toList, .quoted b.composePlugin],
    [.bare "-classpath".toList], [.quoted b.kotlincClasspath],
    [.bare "-d".toList], [.quoted b.classesDir]] ++ b.sources.map fun src ↦ [.quoted src]

theorem kotlincArgfile_eq : b.kotlincArgfile = b.kotlincLines.flatMap line := by
  have hopen : "-jvm-target\n1.8\n-Xcompiler-plugin=\"".toList =
      "-jvm-target".toList ++ '\n' :: ("1.8".toList ++ '\n' ::
        ("-Xcompiler-plugin=".toList ++ ['"'])) := rfl
  have hclasspath : "\"\n-classpath\n\"".toList =
      '"' :: '\n' :: ("-classpath".toList ++ ['\n', '"']) := rfl
  have hdir : "\"\n-d\n\"".toList = '"' :: '\n' :: ("-d".toList ++ ['\n', '"']) := rfl
  have hquote : "\"".toList = ['"'] := rfl
  have hend : "\"\n".toList = ['"', '\n'] := rfl
  unfold kotlincArgfile kotlincLines
  simp only [hopen, hclasspath, hdir, hquote, hend]
  generalize "-jvm-target".toList = target, "1.8".toList = version,
    "-Xcompiler-plugin=".toList = plugin, "-classpath".toList = classpath, "-d".toList = dir
  simp only [List.flatMap_map, List.flatMap_cons, List.flatMap_nil, line,
    Piece.written, List.append_assoc, List.cons_append, List.nil_append, List.append_nil]

/-- A character that stands for itself between quotes and on a line. -/
def Inline (c : Char) : Prop := c ≠ '"' ∧ c ≠ '\\' ∧ c ≠ '\n' ∧ c ≠ '\r'

instance (c : Char) : Decidable (Inline c) :=
  inferInstanceAs (Decidable (c ≠ '"' ∧ c ≠ '\\' ∧ c ≠ '\n' ∧ c ≠ '\r'))

/-- A path that can be written between quotes and on a line of its own: the script has made
its backslashes slashes. -/
def Writable (path : List Char) : Prop := path ≠ [] ∧ ∀ c ∈ path, Inline c

instance (path : List Char) : Decidable (Writable path) :=
  @instDecidableAnd _ _ (inferInstanceAs (Decidable (path ≠ []))) (List.decidableBAll Inline path)

/-- All of them can. -/
structure Valid (b : DexBuild) : Prop where
  composePlugin : Writable b.composePlugin
  kotlinStdlibJar : Writable b.kotlinStdlibJar
  androidJar : Writable b.androidJar
  classpathJars : ∀ jar ∈ b.classpathJars, Writable jar
  sources : ∀ src ∈ b.sources, Writable src
  classesDir : Writable b.classesDir
  classFiles : ∀ file ∈ b.classFiles, Writable file

theorem plain_of_inline {text : List Char} (h : ∀ c ∈ text, Inline c) :
    (Piece.quoted text).Plain :=
  fun c hc ↦ ⟨(h c hc).1, (h c hc).2.1⟩

theorem Writable.plain {path : List Char} (h : Writable path) : (Piece.quoted path).Plain :=
  plain_of_inline h.2

/-- The separator is written between quotes. -/
theorem inline_classpathSep (b : DexBuild) : Inline b.classpathSep := by
  rw [classpathSep]
  split <;> decide

theorem Valid.kotlincClasspath (h : b.Valid) : ∀ c ∈ b.kotlincClasspath, Inline c := by
  intro c hc
  rw [DexBuild.kotlincClasspath, List.mem_append, List.mem_flatMap] at hc
  obtain ⟨jar, hjar, hc⟩ | hc := hc
  · obtain hc | hc := List.mem_append.mp hc
    · exact (h.classpathJars jar hjar).2 c hc
    · rw [List.mem_singleton.mp hc]
      exact b.inline_classpathSep
  · exact h.androidJar.2 c hc

/-- Each line is an argument, and plain. -/
theorem Valid.plain (h : b.Valid) {pieces : List Piece} (hpieces : pieces ∈ b.kotlincLines) :
    pieces ≠ [] ∧ ∀ piece ∈ pieces, piece.Plain := by
  have hsingle : ∀ piece : Piece, piece.Plain →
      [piece] ≠ [] ∧ ∀ piece' ∈ [piece], piece'.Plain :=
    fun piece hplain ↦ ⟨nofun, fun piece' hpiece' ↦ List.mem_singleton.mp hpiece' ▸ hplain⟩
  rw [kotlincLines, List.mem_append, List.mem_map] at hpieces
  obtain hfixed | ⟨src, hsrc, rfl⟩ := hpieces
  · simp only [List.mem_cons, List.not_mem_nil, or_false] at hfixed
    obtain rfl | rfl | rfl | rfl | rfl | rfl | rfl := hfixed
    · exact hsingle _ (by decide)
    · exact hsingle _ (by decide)
    · refine ⟨nofun, fun piece hpiece ↦ ?_⟩
      rw [List.mem_cons, List.mem_singleton] at hpiece
      obtain rfl | rfl := hpiece
      · decide
      · exact h.composePlugin.plain
    · exact hsingle _ (by decide)
    · exact hsingle _ (plain_of_inline h.kotlincClasspath)
    · exact hsingle _ (by decide)
    · exact hsingle _ h.classesDir.plain
  · exact hsingle _ (h.sources src hsrc).plain

/-- `kotlinc` reads the arguments it is meant to. -/
theorem Valid.read_kotlincArgfile (h : b.Valid) (escape : Char → List Char) :
    read escape b.kotlincArgfile = some (b.kotlincArguments b.kotlincClasspath) := by
  have hargument : ∀ text, argument [Piece.quoted text] = text := fun text ↦ List.append_nil _
  rw [kotlincArgfile_eq, read_lines]
  · have hsources : (b.sources.map fun src ↦ [Piece.quoted src]).map argument = b.sources := by
      rw [List.map_map]
      exact (List.map_congr_left fun src _ ↦ hargument src).trans (List.map_id _)
    rw [kotlincLines, List.map_append, hsources, kotlincArguments]
    simp only [List.map_cons, List.map_nil, argument, List.flatMap_cons, List.flatMap_nil,
      Piece.value, List.append_nil]
  · exact fun pieces hpieces ↦ (h.plain hpieces).1
  · exact fun pieces hpieces ↦ (h.plain hpieces).2

/-! ## The jars -/

/-- Each path is ended by the separator. -/
def ended (sep : Char) (paths : List (List Char)) : List Char :=
  paths.flatMap fun path ↦ path ++ [sep]

theorem splitOn_ended {sep : Char} {paths : List (List Char)} {rest : List Char} :
    (ended sep paths ++ rest).splitOn sep =
      paths.flatMap (List.splitOn sep) ++ rest.splitOn sep := by
  induction paths with
  | nil => rfl
  | cons path paths ih =>
      rw [ended, List.flatMap_cons, List.append_assoc, List.append_assoc, List.singleton_append,
        List.splitOn_append_cons_self, ← ended, ih, List.flatMap_cons, List.append_assoc]

theorem flatMap_splitOn {sep : Char} {paths : List (List Char)}
    (h : ∀ path ∈ paths, sep ∉ path) : paths.flatMap (List.splitOn sep) = paths := by
  induction paths with
  | nil => rfl
  | cons path paths ih =>
      rw [List.flatMap_cons, List.splitOn_eq_singleton (h path List.mem_cons_self),
        ih fun p hp ↦ h p (List.mem_cons_of_mem _ hp), List.singleton_append]

/-- What is between separators holds none. -/
theorem not_mem_of_mem_splitOn {sep : Char} {text part : List Char}
    (h : part ∈ text.splitOn sep) : sep ∉ part := by
  induction text generalizing part with
  | nil =>
      rw [List.splitOn_nil, List.mem_singleton] at h
      rw [h]
      nofun
  | cons c text ih =>
      obtain ⟨first, rest, hsplit⟩ := List.exists_cons_of_ne_nil (List.splitOn_ne_nil sep text)
      rw [List.splitOn_cons_eq_if_modifyHead] at h
      by_cases hc : c = sep
      · rw [if_pos (beq_iff_eq.mpr hc), List.mem_cons] at h
        obtain rfl | h := h
        · nofun
        · exact ih h
      · rw [if_neg (by rwa [beq_iff_eq]), hsplit, List.modifyHead_cons, List.mem_cons] at h
        obtain rfl | h := h
        · rw [List.mem_cons, not_or]
          exact ⟨Ne.symm hc, ih (hsplit ▸ List.mem_cons_self)⟩
        · exact ih (hsplit ▸ List.mem_cons_of_mem _ h)

/-- `kotlinc` finds the jars one by one if and only if none has the separator in it. -/
theorem splitOn_kotlincClasspath (b : DexBuild) :
    b.kotlincClasspath.splitOn b.classpathSep = b.classpathJars ++ [b.androidJar] ↔
      ∀ path ∈ b.classpathJars ++ [b.androidJar], b.classpathSep ∉ path := by
  constructor
  · intro h path hpath
    rw [← h] at hpath
    exact not_mem_of_mem_splitOn hpath
  · intro h
    rw [List.forall_mem_append, List.forall_mem_singleton] at h
    show (ended b.classpathSep b.classpathJars ++ b.androidJar).splitOn b.classpathSep = _
    rw [splitOn_ended, flatMap_splitOn h.1, List.splitOn_eq_singleton h.2]

/-- `r8` finds them line by line. -/
theorem Valid.pathLines_classFilesArgfile (h : b.Valid) :
    pathLines b.classFilesArgfile = b.classFiles ++ b.kotlinStdlibJar :: b.classpathJars := by
  have hfile : b.classFilesArgfile =
      ended '\n' (b.classFiles ++ b.kotlinStdlibJar :: b.classpathJars) := by
    rw [ended, List.flatMap_append, List.flatMap_cons, classFilesArgfile, List.append_assoc]
  have hline : ∀ path ∈ b.classFiles ++ b.kotlinStdlibJar :: b.classpathJars, '\n' ∉ path := by
    have hwritable : ∀ {path}, Writable path → '\n' ∉ path :=
      fun hpath hc ↦ (hpath.2 '\n' hc).2.2.1 rfl
    intro path hpath
    rw [List.mem_append, List.mem_cons] at hpath
    obtain hpath | rfl | hpath := hpath
    · exact hwritable (h.classFiles path hpath)
    · exact hwritable h.kotlinStdlibJar
    · exact hwritable (h.classpathJars path hpath)
  have hlines : b.classFilesArgfile.splitOn '\n' =
      (b.classFiles ++ b.kotlinStdlibJar :: b.classpathJars) ++ [[]] := by
    rw [hfile, ← List.append_nil (ended _ _), splitOn_ended, flatMap_splitOn hline]
    rfl
  rw [pathLines, hlines]
  simp only [List.getLast?_concat, if_true, List.dropLast_concat]

/-- If no path is empty or has a quote, a backslash or an end of line in it: `kotlinc` reads
from its file the arguments that were meant, blanks and all; it finds the jars and
`android.jar` in its classpath if and only if no path has the host's separator in it; and `r8`
reads from its own file the class files, the library of Kotlin, and the same jars. -/
theorem reads_alike (h : b.Valid) (escape : Char → List Char) :
    read escape b.kotlincArgfile = some (b.kotlincArguments b.kotlincClasspath) ∧
      (b.kotlincClasspath.splitOn b.classpathSep = b.classpathJars ++ [b.androidJar] ↔
        ∀ path ∈ b.classpathJars ++ [b.androidJar], b.classpathSep ∉ path) ∧
      pathLines b.classFilesArgfile = b.classFiles ++ b.kotlinStdlibJar :: b.classpathJars :=
  ⟨h.read_kotlincArgfile escape, b.splitOn_kotlincClasspath, h.pathLines_classFilesArgfile⟩

/-- A platform under a directory with blanks and brackets in its name. -/
theorem reads_alike_blanks :
    let b : DexBuild := ⟨true, "C:/kotlinc/lib/compose-compiler-plugin.jar".toList,
      "C:/kotlinc/lib/kotlin-stdlib.jar".toList,
      "C:/Program Files (x86)/platforms/android-36/android.jar".toList,
      ["C:/jars/activity-1.7.0.jar".toList], ["KonativeEntryPoint.kt".toList],
      "build/classes".toList, ["build/classes/KonativeEntryPoint.class".toList]⟩
    read (fun c ↦ [c]) b.kotlincArgfile = some (b.kotlincArguments b.kotlincClasspath) ∧
      b.kotlincClasspath.splitOn b.classpathSep = b.classpathJars ++ [b.androidJar] := by
  intro b
  have hvalid : b.Valid := ⟨by decide, by decide, by decide,
    by decide, by decide, by decide, by decide⟩
  obtain ⟨hread, hclasspath, -⟩ := reads_alike hvalid fun c ↦ [c]
  exact ⟨hread, hclasspath.mpr (by decide)⟩

end DexBuild

end Konative.Build
