import Mathlib.Data.List.Basic

/-!
# Argument files

A file of arguments, as the programs of a JDK take them: white space separates arguments,
except between quotes, where a backslash and the character after it stand for something else.

A file written a line for each argument, each made of bare text and of quoted text, is read
back as those arguments (`read_lines`), blanks and all, as long as the bare text is bare and
the quoted text holds no quote and no backslash.
-/

namespace ArgFile

/-! ## Reading -/

/-- Where a reader is. -/
inductive Mode
  | bare
  | quoted (quote : Char)
  /-- After a backslash between quotes. -/
  | escaped (quote : Char)
deriving DecidableEq, Repr

structure Reader where
  done : List (List Char)
  /-- The argument that has begun. -/
  current : Option (List Char)
  mode : Mode

namespace Reader

/-- The argument goes on. -/
def append (r : Reader) (text : List Char) : Reader :=
  { r with current := some (r.current.getD [] ++ text) }

/-- The argument ends, if one has begun. -/
def flush (r : Reader) : Reader := ⟨r.done ++ r.current.toList, none, r.mode⟩

def step (escape : Char → List Char) (r : Reader) (c : Char) : Reader :=
  match r.mode with
  | .bare =>
      if c.isWhitespace then r.flush
      else if c = '"' ∨ c = '\'' then { r.append [] with mode := .quoted c }
      else r.append [c]
  | .quoted quote =>
      if c = quote then { r with mode := .bare }
      else if c = '\\' then { r with mode := .escaped quote }
      else r.append [c]
  | .escaped quote => { r.append (escape c) with mode := .quoted quote }

end Reader

/-- The arguments of a file in the response-file convention of the JDK; `none` where a
quotation does not end. -/
def read (escape : Char → List Char) (file : List Char) : Option (List (List Char)) :=
  let r := file.foldl (Reader.step escape) ⟨[], none, .bare⟩
  if r.mode = .bare then some r.flush.done else none

/-! ## Writing -/

/-- A part of an argument, as it is written. -/
inductive Piece
  | bare (text : List Char)
  | quoted (text : List Char)

namespace Piece

def written : Piece → List Char
  | bare text => text
  | quoted text => '"' :: text ++ ['"']

def value : Piece → List Char
  | bare text | quoted text => text

/-- It is read as what it is meant to be. -/
def Plain : Piece → Prop
  | bare text => text ≠ [] ∧ ∀ c ∈ text, c.isWhitespace = false ∧ c ≠ '"' ∧ c ≠ '\''
  | quoted text => ∀ c ∈ text, c ≠ '"' ∧ c ≠ '\\'

instance (piece : Piece) : Decidable piece.Plain :=
  match piece with
  | bare text => @instDecidableAnd _ _ (inferInstanceAs (Decidable (text ≠ [])))
      (List.decidableBAll (fun c ↦ c.isWhitespace = false ∧ c ≠ '"' ∧ c ≠ '\'') text)
  | quoted text => List.decidableBAll (fun c ↦ c ≠ '"' ∧ c ≠ '\\') text

end Piece

/-- The line of an argument. -/
def line (pieces : List Piece) : List Char := pieces.flatMap Piece.written ++ ['\n']

def argument (pieces : List Piece) : List Char := pieces.flatMap Piece.value

/-! ## Reading what was written -/

variable {escape : Char → List Char} {r : Reader} {text : List Char}

namespace Reader

theorem append_append (r : Reader) (text text' : List Char) :
    (r.append text).append text' = r.append (text ++ text') := by
  rw [append, append, append, Option.getD_some, List.append_assoc]

theorem foldl_bare (hmode : r.mode = .bare) (hne : text ≠ [])
    (h : ∀ c ∈ text, c.isWhitespace = false ∧ c ≠ '"' ∧ c ≠ '\'') :
    text.foldl (step escape) r = r.append text := by
  induction text generalizing r with
  | nil => exact absurd rfl hne
  | cons c text ih =>
      obtain ⟨hblank, hquote, hquote'⟩ := h c List.mem_cons_self
      have hstep : step escape r c = r.append [c] := by
        rw [step, hmode]
        simp only [hblank, hquote, hquote', or_self, if_false, Bool.false_eq_true]
      rw [List.foldl_cons, hstep]
      cases text with
      | nil => rfl
      | cons d text =>
          rw [ih (r := r.append [c]) hmode (List.cons_ne_nil d text) fun c hc ↦
            h c (List.mem_cons_of_mem _ hc), append_append]
          rfl

theorem foldl_inside (hmode : r.mode = .quoted '"') (h : ∀ c ∈ text, c ≠ '"' ∧ c ≠ '\\') :
    text.foldl (step escape) (r.append []) = r.append text := by
  induction text generalizing r with
  | nil => rfl
  | cons c text ih =>
      obtain ⟨hquote, hescape⟩ := h c List.mem_cons_self
      have hstep : step escape (r.append []) c = (r.append [c]).append [] := by
        rw [append_append, step, show (r.append []).mode = .quoted '"' from hmode]
        simp only [hquote, hescape, if_false]
        rw [append_append]
        rfl
      rw [List.foldl_cons, hstep,
        ih (r := r.append [c]) hmode fun c hc ↦ h c (List.mem_cons_of_mem _ hc), append_append]
      rfl

theorem foldl_piece {piece : Piece} (hmode : r.mode = .bare) (h : piece.Plain) :
    piece.written.foldl (step escape) r = r.append piece.value := by
  cases piece with
  | bare text => exact foldl_bare hmode h.1 h.2
  | quoted text =>
      have hopen : step escape r '"' = { r with mode := .quoted '"' }.append [] := by
        rw [step, hmode]
        rfl
      rw [Piece.written, List.cons_append, List.foldl_cons, hopen, List.foldl_append,
        foldl_inside rfl h]
      show { r.append text with mode := .bare } = r.append text
      rw [append, ← hmode]

theorem foldl_pieces {pieces : List Piece} (hmode : r.mode = .bare) (hne : pieces ≠ [])
    (h : ∀ piece ∈ pieces, piece.Plain) :
    (pieces.flatMap Piece.written).foldl (step escape) r = r.append (argument pieces) := by
  induction pieces generalizing r with
  | nil => exact absurd rfl hne
  | cons piece pieces ih =>
      rw [List.flatMap_cons, List.foldl_append, foldl_piece hmode (h piece List.mem_cons_self),
        argument, List.flatMap_cons]
      cases pieces with
      | nil => rw [List.flatMap_nil, List.flatMap_nil, List.append_nil]; rfl
      | cons piece' pieces =>
          rw [ih (r := r.append piece.value) hmode nofun fun p hp ↦ h p (List.mem_cons_of_mem _ hp),
            append_append]
          rfl

end Reader

/-- Lines are read as the arguments they were written for. -/
theorem read_lines {lines : List (List Piece)} (hne : ∀ pieces ∈ lines, pieces ≠ [])
    (h : ∀ pieces ∈ lines, ∀ piece ∈ pieces, piece.Plain) :
    read escape (lines.flatMap line) = some (lines.map argument) := by
  have hfold : ∀ (done : List (List Char)), (lines.flatMap line).foldl (Reader.step escape)
      ⟨done, none, .bare⟩ = ⟨done ++ lines.map argument, none, .bare⟩ := by
    induction lines with
    | nil => intro done; rw [List.map_nil, List.append_nil]; rfl
    | cons pieces lines ih =>
        intro done
        rw [List.flatMap_cons, List.foldl_append, line, List.foldl_append,
          Reader.foldl_pieces rfl (hne pieces List.mem_cons_self) (h pieces List.mem_cons_self)]
        show (lines.flatMap line).foldl (Reader.step escape)
          ⟨done ++ [[] ++ argument pieces], none, .bare⟩ = _
        rw [ih (fun p hp ↦ hne p (List.mem_cons_of_mem _ hp))
          (fun p hp ↦ h p (List.mem_cons_of_mem _ hp)), List.nil_append, List.append_assoc,
          List.singleton_append, List.map_cons]
  rw [read, hfold]
  show some ([] ++ lines.map argument ++ []) = _
  rw [List.nil_append, List.append_nil]

end ArgFile
