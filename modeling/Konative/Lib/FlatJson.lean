import Mathlib.Data.List.Basic
import Mathlib.Data.Option.Basic

/-!
# The text of a flat JSON object

An object whose values are literals is written member by member: a quoted key, a
colon, the literal.  `read` takes such a text apart again, given how a literal is
read; `read_objectText` is that it does.

A text is read to its closing brace and no further, so what has been read stays read
when the text goes on (`scanMembers_append`), and a text that breaks off before its
end is not read at all (`read_of_prefix`).
-/

universe u

namespace FlatJson

/-! ## Writing -/

/-- A member, its key and value already written. -/
def member (m : String × String) : String := m.1 ++ ":" ++ m.2

/-- The members, with commas between them. -/
def membersText : List (String × String) → String
  | [] => ""
  | [m] => member m
  | m :: ms => member m ++ "," ++ membersText ms

/-- An object, in braces. -/
def objectText (ms : List (String × String)) : String := "\x7b" ++ membersText ms ++ "\x7d"

theorem membersText_cons (m : String × String) (ms : List (String × String)) :
    membersText (m :: ms) = member m ++ if ms = [] then "" else "," ++ membersText ms := by
  cases ms with
  | nil => exact (String.append_empty).symm
  | cons n ms => rw [if_neg (List.cons_ne_nil _ _), membersText, String.append_assoc]; exact nofun

/-- Put a backslash before quotes and backslashes. -/
def escape : List Char → List Char
  | [] => []
  | c :: cs => if c = '\x22' ∨ c = '\x5c' then '\x5c' :: c :: escape cs else c :: escape cs

/-- A string in quotes. -/
def quote (s : String) : String := .ofList ('\x22' :: escape s.toList ++ ['\x22'])

/-! ## Reading -/

/-- The first character, if it is `c`. -/
def expect (c : Char) : List Char → Option (List Char)
  | [] => none
  | d :: cs => if d = c then some cs else none

/-- Read up to the closing quote; `escaped` is whether a backslash came before. -/
def scanString : Bool → List Char → Option (List Char × List Char)
  | _, [] => none
  | true, c :: cs => (scanString false cs).map fun x ↦ (c :: x.1, x.2)
  | false, c :: cs =>
      if c = '\x22' then some ([], cs)
      else if c = '\x5c' then scanString true cs
      else (scanString false cs).map fun x ↦ (c :: x.1, x.2)

/-- The character ends a literal. -/
def isDelimiter (c : Char) : Bool := c = ',' ∨ c = '\x7d'

/-- Read a literal, and the character after it. -/
def scanLiteral : List Char → Option (List Char × Char × List Char)
  | [] => none
  | c :: cs =>
      if isDelimiter c then some ([], c, cs) else (scanLiteral cs).map fun x ↦ (c :: x.1, x.2)

variable {V : Type u} (lit : String → Option V)

/-- Read members up to the closing brace, at most `n` of them. -/
def scanMembers : Nat → List Char → Option (List (String × V) × List Char)
  | 0, _ => none
  | n + 1, cs =>
      (expect '\x22' cs).bind fun cs ↦
      (scanString false cs).bind fun key ↦
      (expect ':' key.2).bind fun cs ↦
      (scanLiteral cs).bind fun text ↦
      (lit (.ofList text.1)).bind fun v ↦
      if text.2.1 = ',' then
        (scanMembers n text.2.2).map fun x ↦ ((.ofList key.1, v) :: x.1, x.2)
      else some ([(.ofList key.1, v)], text.2.2)

/-- Read an object, and leave the rest. -/
def scanObject (cs : List Char) : Option (List (String × V) × List Char) :=
  (expect '\x7b' cs).bind fun cs ↦
  match expect '\x7d' cs with
  | some rest => some ([], rest)
  | none => scanMembers lit cs.length cs

/-- Read a text that is an object and nothing else. -/
def read (text : String) : Option (List (String × V)) :=
  (scanObject lit text.toList).bind fun x ↦ if x.2 = [] then some x.1 else none

/-! ## What has been written is read -/

@[simp] theorem expect_cons_self (c : Char) (cs : List Char) : expect c (c :: cs) = some cs :=
  if_pos rfl

theorem expect_cons_of_ne {c d : Char} (h : d ≠ c) (cs : List Char) : expect c (d :: cs) = none :=
  if_neg h

theorem scanString_escape (s rest : List Char) :
    scanString false (escape s ++ '\x22' :: rest) = some (s, rest) := by
  induction s with
  | nil => rfl
  | cons c s ih =>
      by_cases hc : c = '\x22' ∨ c = '\x5c'
      · rw [escape, if_pos hc, List.cons_append, List.cons_append, scanString,
          if_neg (by decide), if_pos rfl, scanString, ih]
        rfl
      · rw [escape, if_neg hc, List.cons_append, scanString, if_neg fun h ↦ hc (.inl h),
          if_neg fun h ↦ hc (.inr h), ih]
        rfl

theorem scanLiteral_append {t : List Char} (ht : ∀ c ∈ t, isDelimiter c = false) {d : Char}
    (hd : isDelimiter d = true) (rest : List Char) :
    scanLiteral (t ++ d :: rest) = some (t, d, rest) := by
  induction t with
  | nil => exact if_pos hd
  | cons c t ih =>
      rw [List.cons_append, scanLiteral, if_neg (by simp [ht c List.mem_cons_self]),
        ih fun c hc ↦ ht c (List.mem_cons_of_mem _ hc)]
      rfl

/-- A literal is written without delimiters, and reads as its value. -/
structure IsLiteral (text : String) (v : V) : Prop where
  noDelimiter : ∀ c ∈ text.toList, isDelimiter c = false
  reads : lit text = some v

variable {lit}

/-- A member and what comes after it are read. -/
theorem scanMembers_member {key text : String} {v : V} (h : IsLiteral lit text v) {d : Char}
    (hd : isDelimiter d = true) (n : Nat) (rest : List Char) :
    scanMembers lit (n + 1) ((member (quote key, text)).toList ++ d :: rest) =
      if d = ',' then (scanMembers lit n rest).map fun x ↦ ((key, v) :: x.1, x.2)
      else some ([(key, v)], rest) := by
  have htext : (member (quote key, text)).toList ++ d :: rest =
      '\x22' :: (escape key.toList ++ '\x22' :: ':' :: (text.toList ++ d :: rest)) := by
    simp [member, quote]
  rw [htext, scanMembers, expect_cons_self, Option.bind_some, scanString_escape, Option.bind_some,
    expect_cons_self, Option.bind_some, scanLiteral_append h.noDelimiter hd, Option.bind_some]
  simp only [String.ofList_toList, h.reads, Option.bind_some]

/-- The members of an object, as they are written. -/
def texts (ms : List (String × String × V)) : List (String × String) :=
  ms.map fun m ↦ (quote m.1, m.2.1)

/-- The members of an object, as they are read. -/
def values (ms : List (String × String × V)) : List (String × V) := ms.map fun m ↦ (m.1, m.2.2)

theorem scanMembers_membersText {ms : List (String × String × V)}
    (h : ∀ m ∈ ms, IsLiteral lit m.2.1 m.2.2) (hne : ms ≠ []) {n : Nat} (hn : ms.length ≤ n)
    (rest : List Char) :
    scanMembers lit n ((membersText (texts ms)).toList ++ '\x7d' :: rest) =
      some (values ms, rest) := by
  induction ms generalizing n with
  | nil => exact absurd rfl hne
  | cons m ms ih =>
      obtain ⟨n, rfl⟩ : ∃ k, n = k + 1 := ⟨n - 1, by simp at hn; omega⟩
      have hm := h m List.mem_cons_self
      rw [texts, List.map_cons, membersText_cons]
      cases ms with
      | nil =>
          rw [List.map_nil, if_pos rfl, String.append_empty,
            scanMembers_member hm (by decide), if_neg (by decide)]
          rfl
      | cons m' ms =>
          have ih := ih (fun x hx ↦ h x (List.mem_cons_of_mem _ hx)) (List.cons_ne_nil _ _)
            (n := n) (Nat.le_of_succ_le_succ hn)
          rw [if_neg (by simp), String.toList_append, String.toList_append, List.append_assoc,
            List.append_assoc]
          refine (scanMembers_member hm (d := ',') (by decide) n _).trans ?_
          rw [if_pos rfl]
          refine (congrArg _ ih).trans ?_
          rfl

/-! ## Integers as literals -/

/-- The decimal text of an integer. -/
def decimal (n : Int) : String := if n < 0 then "-" ++ n.natAbs.repr else n.natAbs.repr

/-- Digits, as a number. -/
def readDigits (cs : List Char) : Option Nat :=
  if cs ≠ [] ∧ cs.all Char.isDigit then some (Nat.ofDigitChars 10 cs 0) else none

/-- Read the decimal text of an integer. -/
def readDecimal (text : String) : Option Int :=
  match expect '-' text.toList with
  | some cs => (readDigits cs).map fun n ↦ -(n : Int)
  | none => (readDigits text.toList).map fun n ↦ (n : Int)

theorem isDigit_of_mem_repr {n : Nat} {c : Char} (hc : c ∈ n.repr.toList) : c.isDigit = true := by
  rw [Nat.toList_repr] at hc
  exact Nat.isDigit_of_mem_toDigits (by decide) (by decide) hc

theorem readDigits_repr (n : Nat) : readDigits n.repr.toList = some n := by
  rw [readDigits, if_pos, Nat.toList_repr, Nat.ofDigitChars_ten_toDigits]
  refine ⟨fun h ↦ Nat.repr_ne_empty (String.toList_eq_nil_iff.mp h), ?_⟩
  exact List.all_eq_true.mpr fun c hc ↦ isDigit_of_mem_repr hc

theorem readDecimal_decimal (n : Int) : readDecimal (decimal n) = some n := by
  unfold readDecimal decimal
  split_ifs with hn
  · have hlist : ("-" ++ n.natAbs.repr).toList = '-' :: n.natAbs.repr.toList := by simp
    have habs : -(n.natAbs : Int) = n := by omega
    rw [hlist, expect_cons_self]
    simp only [readDigits_repr]
    exact congrArg some habs
  · have hnone : expect '-' n.natAbs.repr.toList = none := by
      cases hcs : n.natAbs.repr.toList with
      | nil => rfl
      | cons c cs =>
          refine expect_cons_of_ne ?_ cs
          rintro rfl
          have := isDigit_of_mem_repr (n := n.natAbs) (c := '-') (by rw [hcs]; simp)
          exact absurd this (by decide)
    have habs : (n.natAbs : Int) = n := by omega
    rw [hnone]
    simp only [readDigits_repr]
    exact congrArg some habs

theorem mem_decimal {n : Int} {c : Char} (hc : c ∈ (decimal n).toList) :
    c = '-' ∨ c.isDigit = true := by
  unfold decimal at hc
  split_ifs at hc with hn
  · rw [String.toList_append] at hc
    rcases List.mem_append.mp hc with h | h
    · exact .inl (by simpa using h)
    · exact .inr (isDigit_of_mem_repr h)
  · exact .inr (isDigit_of_mem_repr hc)

/-! ## Objects -/

theorem length_le_membersText (ms : List (String × String)) :
    ms.length ≤ (membersText ms).toList.length := by
  induction ms with
  | nil => exact Nat.zero_le _
  | cons m ms ih =>
      have hm : 1 ≤ (member m).toList.length := by simp [member]; omega
      rw [membersText_cons, String.toList_append, List.length_append, List.length_cons]
      cases ms with
      | nil => simpa using hm
      | cons n ms =>
          rw [if_neg (List.cons_ne_nil _ _), String.toList_append, List.length_append]
          omega

/-- An object that has been written is read. -/
theorem read_objectText {ms : List (String × String × V)}
    (h : ∀ m ∈ ms, IsLiteral lit m.2.1 m.2.2) :
    read lit (objectText (texts ms)) = some (values ms) := by
  have hlist : (objectText (texts ms)).toList =
      '\x7b' :: ((membersText (texts ms)).toList ++ ['\x7d']) := by
    simp [objectText]
  rw [read, hlist, scanObject, expect_cons_self, Option.bind_some]
  cases ms with
  | nil => rfl
  | cons m ms =>
      have hlen : (m :: ms).length ≤
          ((membersText (texts (m :: ms))).toList ++ ['\x7d']).length := by
        have := length_le_membersText (texts (m :: ms))
        rw [texts, List.length_map] at this
        rw [List.length_append]
        exact Nat.le_add_right_of_le this
      have hfirst : ∃ cs, (membersText (texts (m :: ms))).toList = '\x22' :: cs := by
        rw [texts, List.map_cons, membersText_cons]
        exact ⟨_, by simp [member, quote]; rfl⟩
      obtain ⟨cs, hfirst⟩ := hfirst
      have hbrace : expect '\x7d' ((membersText (texts (m :: ms))).toList ++ ['\x7d']) = none := by
        rw [hfirst]
        exact expect_cons_of_ne (by decide) _
      rw [hbrace]
      simp only [scanMembers_membersText h (List.cons_ne_nil _ _) hlen, Option.bind_some, if_pos]

/-! ## What has been read stays read -/

section Append

variable {cs rest q : List Char}

theorem expect_append {c : Char} (h : expect c cs = some rest) :
    expect c (cs ++ q) = some (rest ++ q) := by
  cases cs with
  | nil => cases h
  | cons d cs =>
      rw [expect] at h
      split at h
      · obtain rfl := Option.some.inj h
        exact if_pos ‹_›
      · cases h

theorem scanString_append {b : Bool} {key : List Char} (h : scanString b cs = some (key, rest)) :
    scanString b (cs ++ q) = some (key, rest ++ q) := by
  induction cs generalizing b key with
  | nil => cases h
  | cons c cs ih =>
      rw [List.cons_append]
      cases b with
      | true =>
          rw [scanString] at h ⊢
          obtain ⟨x, hx, rfl, rfl⟩ := by simpa using h
          rw [ih hx]
          rfl
      | false =>
          rw [scanString] at h ⊢
          split at h
          · obtain ⟨rfl, rfl⟩ := Prod.mk.inj (Option.some.inj h)
            exact if_pos ‹_›
          · rw [if_neg ‹_›]
            split at h
            · rw [if_pos ‹_›, ih h]
            · obtain ⟨x, hx, rfl, rfl⟩ := by simpa using h
              rw [if_neg ‹_›, ih hx]
              rfl

theorem scanLiteral_append_right {text : List Char} {d : Char}
    (h : scanLiteral cs = some (text, d, rest)) :
    scanLiteral (cs ++ q) = some (text, d, rest ++ q) := by
  induction cs generalizing text with
  | nil => cases h
  | cons c cs ih =>
      rw [List.cons_append]
      rw [scanLiteral] at h ⊢
      split at h
      · obtain ⟨rfl, rfl, rfl⟩ := by simpa using h
        exact if_pos ‹_›
      · obtain ⟨⟨text', d', rest'⟩, hx, h⟩ := Option.map_eq_some_iff.mp h
        obtain ⟨rfl, rfl, rfl⟩ := by simpa using h
        rw [if_neg ‹_›, ih hx]
        rfl

theorem scanMembers_append {n n' : Nat} (hn : n ≤ n') {ms : List (String × V)}
    (h : scanMembers lit n cs = some (ms, rest)) :
    scanMembers lit n' (cs ++ q) = some (ms, rest ++ q) := by
  induction n generalizing n' cs ms with
  | zero => cases h
  | succ n ih =>
      obtain ⟨n', rfl⟩ : ∃ k, n' = k + 1 := ⟨n' - 1, by omega⟩
      simp only [scanMembers, Option.bind_eq_some_iff] at h
      obtain ⟨cs₁, h₁, key, h₂, cs₂, h₃, text, h₄, v, h₅, h⟩ := h
      simp only [scanMembers, expect_append h₁, scanString_append h₂, expect_append h₃,
        scanLiteral_append_right h₄, h₅, Option.bind_some]
      split at h
      · rename_i hc
        obtain ⟨x, hx, h⟩ := Option.map_eq_some_iff.mp h
        obtain ⟨rfl, rfl⟩ := Prod.mk.inj h
        rw [if_pos hc, ih (Nat.le_of_succ_le_succ hn) hx]
        rfl
      · rename_i hc
        obtain ⟨rfl, rfl⟩ := Prod.mk.inj (Option.some.inj h)
        rw [if_neg hc]

theorem scanObject_append {ms : List (String × V)} (h : scanObject lit cs = some (ms, rest)) :
    scanObject lit (cs ++ q) = some (ms, rest ++ q) := by
  obtain ⟨cs₁, h₁, h⟩ := Option.bind_eq_some_iff.mp h
  rw [scanObject, expect_append h₁, Option.bind_some]
  cases hb : expect '\x7d' cs₁ with
  | some rest' =>
      rw [hb] at h
      obtain ⟨rfl, rfl⟩ := Prod.mk.inj (Option.some.inj h)
      rw [expect_append hb]
  | none =>
      rw [hb] at h
      have hb' : expect '\x7d' (cs₁ ++ q) = none := by
        cases cs₁ with
        | nil => cases h
        | cons d cs₁ =>
            refine expect_cons_of_ne ?_ _
            rintro rfl
            rw [expect_cons_self] at hb
            cases hb
      rw [hb']
      exact scanMembers_append (by rw [List.length_append]; exact Nat.le_add_right ..) h

end Append

/-- A text that goes on after what is read of it is not read itself. -/
theorem read_of_prefix {p q : String} {ms : List (String × V)} (h : read lit (p ++ q) = some ms)
    (hq : q ≠ "") : read lit p = none := by
  rw [Option.eq_none_iff_forall_ne_some]
  intro ms' hp
  obtain ⟨⟨ms₁, rest⟩, h₁, hp⟩ := Option.bind_eq_some_iff.mp hp
  obtain ⟨⟨ms₂, rest₂⟩, h₂, h⟩ := Option.bind_eq_some_iff.mp h
  have hrest : rest = [] := by
    by_contra hne
    rw [if_neg hne] at hp
    cases hp
  have hrest₂ : rest₂ = [] := by
    by_contra hne
    rw [if_neg hne] at h
    cases h
  subst hrest hrest₂
  rw [String.toList_append, scanObject_append h₁] at h₂
  obtain ⟨-, hnil⟩ := Prod.mk.inj (Option.some.inj h₂)
  exact hq (String.toList_eq_nil_iff.mp hnil)

end FlatJson
