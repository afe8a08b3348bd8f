import Konative.Lib.Codec
import Mathlib.Data.List.Infix
import Mathlib.Logic.Function.Basic

/-!
# Assembling data

A file of an assembler that lays out data: it goes from section to section, and puts there
labels, the contents of other files, bytes, and distances between labels.

An object only ever grows (`Object.Le`): what a section holds stays where it is, and so does
what a label is at.  So what is at a label once it is passed is there in the object that the
file becomes (`Object.Holds.mono`), and in every memory the object is loaded into
(`Loaded.read_eq`).
-/

/-- A directive or a label. -/
inductive Statement
  /-- `.section name, "flags"`. -/
  | inSection (name flags : List Char)
  | balign (boundary : Nat)
  | global (symbol : List Char)
  | label (symbol : List Char)
  /-- `.incbin "literal"`. -/
  | incbin (literal : List Char)
  /-- `.byte literal`. -/
  | byte (literal : List Char)
  /-- `.quad stop - start`. -/
  | distance (stop start : List Char)
deriving DecidableEq, Repr

namespace Assembly

/-- The value of a hexadecimal digit. -/
def hexValue (c : Char) : Option Nat :=
  if '0' ≤ c ∧ c ≤ '9' then some (c.toNat - '0'.toNat)
  else if 'a' ≤ c ∧ c ≤ 'f' then some (c.toNat - 'a'.toNat + 10)
  else if 'A' ≤ c ∧ c ≤ 'F' then some (c.toNat - 'A'.toNat + 10)
  else none

/-- A hexadecimal literal of a byte. -/
def byteValue : List Char → Option UInt8
  | ['0', 'x', high, low] => do
      let h ← hexValue high
      let l ← hexValue low
      some (UInt8.ofNat (16 * h + l))
  | _ => none

/-- What an assembler asks of its host. -/
structure Host where
  /-- What is between the quotes of a string, with its escapes read. -/
  unescape : List Char → Option (List Char)
  content : List Char → Option Bytes

/-- An object file, and the section the next statement adds to. -/
structure Object where
  sections : List Char → Bytes
  alignment : List Char → Nat
  /-- The section a symbol is in, and where it is there. -/
  symbols : List Char → Option (List Char × Nat)
  globals : List (List Char)
  current : List Char

/-- Before the first statement. -/
def Object.empty : Object where
  sections _ := []
  alignment _ := 1
  symbols _ := none
  globals := []
  current := ".text".toList

namespace Object

/-- Where the next byte goes. -/
def here (o : Object) : Nat := (o.sections o.current).length

/-- Go to a section. -/
def enter (o : Object) (name : List Char) : Object := { o with current := name }

def append (o : Object) (bytes : Bytes) : Object :=
  { o with sections := Function.update o.sections o.current (o.sections o.current ++ bytes) }

/-- The zeros up to a boundary. -/
def padding (o : Object) (boundary : Nat) : Bytes :=
  List.replicate ((boundary - o.here % boundary) % boundary) 0

/-- Have a section start at a boundary too. -/
def require (o : Object) (boundary : Nat) : Object :=
  { o with
    alignment := Function.update o.alignment o.current (Nat.lcm (o.alignment o.current) boundary) }

/-- Go on at a boundary. -/
def align (o : Object) (boundary : Nat) : Object :=
  (o.append (o.padding boundary)).require boundary

def publish (o : Object) (symbol : List Char) : Object :=
  { o with globals := symbol :: o.globals }

/-- Have a symbol stand for the next byte. -/
def define (o : Object) (symbol : List Char) : Object :=
  { o with symbols := Function.update o.symbols symbol (some (o.current, o.here)) }

end Object

/-- The distance from one offset to another, in eight bytes. -/
def quad (stop start : Nat) : Bytes :=
  Codec.leBytes 8 (UInt64.ofNat stop - UInt64.ofNat start).toNat

/-- One statement. -/
def step (host : Host) (o : Object) : Statement → Option Object
  | .inSection name _ => some (o.enter name)
  | .balign boundary => some (o.align boundary)
  | .global symbol => some (o.publish symbol)
  | .label symbol => if (o.symbols symbol).isSome then none else some (o.define symbol)
  | .incbin literal => do
      let path ← host.unescape literal
      let bytes ← host.content path
      some (o.append bytes)
  | .byte literal => do
      let value ← byteValue literal
      some (o.append [value])
  | .distance stop start => do
      let e ← o.symbols stop
      let b ← o.symbols start
      if e.1 = b.1 then some (o.append (quad e.2 b.2)) else none

/-- A file, from the first statement to the last. -/
def assemble (host : Host) (o : Object) (file : List Statement) : Option Object :=
  file.foldlM (step host) o

variable {host : Host} {o o' o'' : Object} {s : Statement} {file file' : List Statement}
  {symbol : List Char} {bytes : Bytes}

theorem assemble_cons :
    assemble host o (s :: file) = (step host o s).bind (assemble host · file) := rfl

/-! ## What stays -/

/-- Nothing of an object is lost in a later one. -/
structure Object.Le (o o' : Object) : Prop where
  sections : ∀ name, o.sections name <+: o'.sections name
  alignment : ∀ name, o.alignment name ∣ o'.alignment name
  symbols : ∀ symbol p, o.symbols symbol = some p → o'.symbols symbol = some p

namespace Object.Le

theorem trans (h : o.Le o') (h' : o'.Le o'') : o.Le o'' where
  sections name := (h.sections name).trans (h'.sections name)
  alignment name := Nat.dvd_trans (h.alignment name) (h'.alignment name)
  symbols symbol p hp := h'.symbols symbol p (h.symbols symbol p hp)

theorem enter (o : Object) (name : List Char) : o.Le (o.enter name) where
  sections _ := List.prefix_rfl
  alignment _ := Nat.dvd_refl _
  symbols _ _ h := h

theorem publish (o : Object) (symbol : List Char) : o.Le (o.publish symbol) where
  sections _ := List.prefix_rfl
  alignment _ := Nat.dvd_refl _
  symbols _ _ h := h

/-- What is appended goes behind everything. -/
theorem append (o : Object) (bytes : Bytes) : o.Le (o.append bytes) where
  sections name := by
    show _ <+: Function.update o.sections o.current _ name
    by_cases h : name = o.current
    · subst h
      rw [Function.update_self]
      exact List.prefix_append ..
    · rw [Function.update_of_ne h]
  alignment _ := Nat.dvd_refl _
  symbols _ _ h := h

theorem require (o : Object) (boundary : Nat) : o.Le (o.require boundary) where
  sections _ := List.prefix_rfl
  alignment name := by
    show _ ∣ Function.update o.alignment o.current _ name
    by_cases h : name = o.current
    · subst h
      rw [Function.update_self]
      exact Nat.dvd_lcm_left ..
    · exact ⟨1, by rw [Function.update_of_ne h, Nat.mul_one]⟩
  symbols _ _ h := h

theorem align (o : Object) (boundary : Nat) : o.Le (o.align boundary) :=
  (append ..).trans (require ..)

theorem define (h : o.symbols symbol = none) : o.Le (o.define symbol) where
  sections _ := List.prefix_rfl
  alignment _ := Nat.dvd_refl _
  symbols s p hs := by
    have hne : s ≠ symbol := by
      rintro rfl
      cases hs.symm.trans h
    show Function.update o.symbols symbol _ s = _
    rw [Function.update_of_ne hne, hs]

end Object.Le

/-! ## What symbols are at -/

namespace Object

/-- A global symbol. -/
def place (o : Object) (symbol : List Char) : Object := (o.publish symbol).define symbol

@[simp] theorem symbols_enter (o : Object) (name : List Char) :
    (o.enter name).symbols = o.symbols := rfl

@[simp] theorem symbols_append (o : Object) (bytes : Bytes) :
    (o.append bytes).symbols = o.symbols := rfl

@[simp] theorem symbols_align (o : Object) (boundary : Nat) :
    (o.align boundary).symbols = o.symbols := rfl

@[simp] theorem symbols_place (o : Object) (symbol : List Char) :
    (o.place symbol).symbols = Function.update o.symbols symbol (some (o.current, o.here)) := rfl

theorem symbols_place_ne_none {s : List Char} :
    (o.place symbol).symbols s ≠ none ↔ s = symbol ∨ o.symbols s ≠ none := by
  rw [symbols_place]
  by_cases h : s = symbol
  · subst h
    rw [Function.update_self]
    exact ⟨fun _ ↦ .inl rfl, fun _ ↦ nofun⟩
  · rw [Function.update_of_ne h, or_iff_right h]

@[simp] theorem current_enter (o : Object) (name : List Char) : (o.enter name).current = name := rfl

@[simp] theorem current_append (o : Object) (bytes : Bytes) :
    (o.append bytes).current = o.current := rfl

@[simp] theorem current_align (o : Object) (boundary : Nat) :
    (o.align boundary).current = o.current := rfl

@[simp] theorem current_place (o : Object) (symbol : List Char) :
    (o.place symbol).current = o.current := rfl

@[simp] theorem here_place (o : Object) (symbol : List Char) : (o.place symbol).here = o.here := rfl

@[simp] theorem here_append (o : Object) (bytes : Bytes) :
    (o.append bytes).here = o.here + bytes.length := by
  simp only [here, append, Function.update_self, List.length_append]

theorem append_nil (o : Object) : o.append [] = o := by
  rw [append, List.append_nil, Function.update_eq_self]

theorem append_append (o : Object) (bytes bytes' : Bytes) :
    (o.append bytes).append bytes' = o.append (bytes ++ bytes') := by
  simp only [append, Function.update_self, Function.update_idem, List.append_assoc]

/-- The padding goes up to the boundary. -/
theorem dvd_here_align (o : Object) {boundary : Nat} (h : 0 < boundary) :
    boundary ∣ (o.align boundary).here := by
  show boundary ∣ (o.append (o.padding boundary)).here
  rw [here_append, padding, List.length_replicate, Nat.dvd_iff_mod_eq_zero]
  have hlt := Nat.mod_lt o.here h
  by_cases hzero : o.here % boundary = 0
  · rw [hzero, Nat.sub_zero, Nat.mod_self, Nat.add_zero, hzero]
  · rw [Nat.mod_eq_of_lt (by omega : boundary - o.here % boundary < boundary), Nat.add_mod,
      Nat.mod_eq_of_lt (by omega : boundary - o.here % boundary < boundary),
      (by omega : o.here % boundary + (boundary - o.here % boundary) = boundary), Nat.mod_self]

theorem dvd_alignment_align (o : Object) (boundary : Nat) :
    boundary ∣ (o.align boundary).alignment o.current := by
  show _ ∣ Function.update o.alignment o.current _ o.current
  rw [Function.update_self]
  exact Nat.dvd_lcm_right ..

/-- These bytes are at a symbol. -/
def Holds (o : Object) (symbol : List Char) (bytes : Bytes) : Prop :=
  ∃ name offset, o.symbols symbol = some (name, offset) ∧
    bytes <+: (o.sections name).drop offset

/-- A symbol is at a boundary. -/
def Aligned (o : Object) (symbol : List Char) (boundary : Nat) : Prop :=
  ∃ name offset, o.symbols symbol = some (name, offset) ∧
    boundary ∣ o.alignment name ∧ boundary ∣ offset

/-- What follows a symbol is at it. -/
theorem holds_append (o : Object) (symbol : List Char) (bytes : Bytes) :
    ((o.place symbol).append bytes).Holds symbol bytes := by
  refine ⟨o.current, o.here, by rw [symbols_append, symbols_place, Function.update_self], ?_⟩
  show bytes <+: (Function.update o.sections o.current _ o.current).drop o.here
  rw [Function.update_self]
  show bytes <+: (o.sections o.current ++ bytes).drop (o.sections o.current).length
  rw [List.drop_left]

theorem aligned_place (o : Object) (symbol : List Char) {boundary : Nat} (h : 0 < boundary) :
    ((o.align boundary).place symbol).Aligned symbol boundary :=
  ⟨o.current, _, by rw [symbols_place, Function.update_self]; rfl,
    o.dvd_alignment_align boundary, o.dvd_here_align h⟩

theorem Le.place (h : o.symbols symbol = none) : o.Le (o.place symbol) :=
  (Le.publish o symbol).trans (Le.define h)

theorem Holds.mono (hle : o.Le o') (h : o.Holds symbol bytes) : o'.Holds symbol bytes := by
  obtain ⟨name, offset, hsymbol, hbytes⟩ := h
  exact ⟨name, offset, hle.symbols _ _ hsymbol,
    hbytes.trans ((hle.sections name).drop offset)⟩

theorem Aligned.mono {boundary : Nat} (hle : o.Le o') (h : o.Aligned symbol boundary) :
    o'.Aligned symbol boundary := by
  obtain ⟨name, offset, hsymbol, halign, hoffset⟩ := h
  exact ⟨name, offset, hle.symbols _ _ hsymbol, Nat.dvd_trans halign (hle.alignment name),
    hoffset⟩

end Object

/-! ## Objects of one section -/

namespace Object

/-- The only section with something in it is this one. -/
structure Within (o : Object) (name : List Char) : Prop where
  sections : ∀ other, other ≠ name → o.sections other = []
  alignment : ∀ other, other ≠ name → o.alignment other = 1

namespace Within

variable {name : List Char}

theorem empty : Object.empty.Within name := ⟨fun _ _ ↦ rfl, fun _ _ ↦ rfl⟩

theorem enter (h : o.Within name) (other : List Char) : (o.enter other).Within name :=
  ⟨h.sections, h.alignment⟩

theorem place (h : o.Within name) (symbol : List Char) : (o.place symbol).Within name :=
  ⟨h.sections, h.alignment⟩

theorem append (h : o.Within name) (hcurrent : o.current = name) (bytes : Bytes) :
    (o.append bytes).Within name := by
  refine ⟨fun other hne ↦ ?_, h.alignment⟩
  show Function.update o.sections o.current _ other = []
  rw [Function.update_of_ne (hcurrent ▸ hne), h.sections other hne]

theorem align (h : o.Within name) (hcurrent : o.current = name) (boundary : Nat) :
    (o.align boundary).Within name := by
  refine ⟨(h.append hcurrent (o.padding boundary)).sections, fun other hne ↦ ?_⟩
  show Function.update o.alignment o.current _ other = 1
  rw [Function.update_of_ne (hcurrent ▸ hne), h.alignment other hne]

end Within

theorem alignment_align (o : Object) (boundary : Nat) :
    (o.align boundary).alignment o.current = Nat.lcm (o.alignment o.current) boundary :=
  Function.update_self ..

end Object

/-! ## Files that assemble -/

theorem assemble_inSection {name flags : List Char} :
    assemble host o (.inSection name flags :: file) = assemble host (o.enter name) file := rfl

theorem assemble_balign {boundary : Nat} :
    assemble host o (.balign boundary :: file) = assemble host (o.align boundary) file := rfl

theorem assemble_symbol (h : o.symbols symbol = none) :
    assemble host o (.global symbol :: .label symbol :: file) =
      assemble host (o.place symbol) file := by
  rw [assemble_cons, step, Option.bind_some, assemble_cons, step, if_neg]
  · rfl
  · show ¬ (o.symbols symbol).isSome
    rw [h]
    nofun

theorem assemble_incbin {literal path : List Char} (hpath : host.unescape literal = some path)
    (hbytes : host.content path = some bytes) :
    assemble host o (.incbin literal :: file) = assemble host (o.append bytes) file := by
  rw [assemble_cons, step, hpath, Option.bind_eq_bind, Option.bind_some, hbytes]
  rfl

theorem assemble_distance {stop start name : List Char} {e b : Nat}
    (he : o.symbols stop = some (name, e)) (hb : o.symbols start = some (name, b)) :
    assemble host o (.distance stop start :: file) =
      assemble host (o.append (quad e b)) file := by
  rw [assemble_cons, step, he, hb]
  simp only [Option.bind_eq_bind, Option.bind_some, if_true]

theorem assemble_bytes {literals : List (List Char)}
    (h : literals.map byteValue = bytes.map some) :
    assemble host o (literals.map .byte ++ file) = assemble host (o.append bytes) file := by
  induction literals generalizing o bytes with
  | nil =>
      obtain rfl := List.map_eq_nil_iff.mp h.symm
      rw [Object.append_nil]
      rfl
  | cons literal literals ih =>
      cases bytes with
      | nil => cases h
      | cons b bytes =>
          obtain ⟨hvalue, hrest⟩ := List.cons.inj h
          rw [List.map_cons, List.cons_append, assemble_cons, step, hvalue]
          show assemble host (o.append [b]) _ = _
          rw [ih hrest, Object.append_append, List.singleton_append]

/-- The distance between what bytes follow and what follows them is how many they are. -/
theorem leNat_quad (start : Nat) {n : Nat} (h : n < 2 ^ 64) :
    Codec.leNat (quad (start + n) start) = n := by
  rw [quad, UInt64.ofNat_add, UInt64.add_comm, UInt64.add_sub_cancel,
    UInt64.toNat_ofNat_of_lt' h]
  exact Codec.leNat_leBytes_of_lt h

/-! ## In memory -/

/-- An object in memory: each section is at one place, at its boundary. -/
structure Loaded (o : Object) (memory : Nat → UInt8) where
  base : List Char → Nat
  aligned : ∀ name, o.alignment name ∣ base name
  holds : ∀ name i (h : i < (o.sections name).length),
    memory (base name + i) = (o.sections name)[i]

/-- So many bytes from an address on. -/
def read (memory : Nat → UInt8) (address n : Nat) : Bytes :=
  (List.range n).map fun i ↦ memory (address + i)

/-- Memory with these bytes from an address on. -/
def store (address : Nat) (bytes : Bytes) (memory : Nat → UInt8) (n : Nat) : UInt8 :=
  if address ≤ n then bytes[n - address]?.getD (memory n) else memory n

theorem store_add (address : Nat) (memory : Nat → UInt8) {i : Nat} (h : i < bytes.length) :
    store address bytes memory (address + i) = bytes[i] := by
  rw [store, if_pos (Nat.le_add_right ..), Nat.add_sub_cancel_left, List.getElem?_eq_getElem h,
    Option.getD_some]

theorem store_of_lt {address n : Nat} (h : n < address) (bytes : Bytes) (memory : Nat → UInt8) :
    store address bytes memory n = memory n := if_neg (Nat.not_le.mpr h)

namespace Loaded

variable {memory : Nat → UInt8} (m : Loaded o memory)

/-- Where a symbol is. -/
def address (symbol : List Char) : Option Nat :=
  (o.symbols symbol).map fun p ↦ m.base p.1 + p.2

/-- What an object holds at a symbol is read there. -/
theorem read_eq (h : o.Holds symbol bytes) :
    ∃ a, m.address symbol = some a ∧ read memory a bytes.length = bytes := by
  obtain ⟨name, offset, hsymbol, rest, hbytes⟩ := h
  refine ⟨m.base name + offset, by rw [address, hsymbol]; rfl, ?_⟩
  apply List.ext_getElem?
  intro i
  rw [read, List.getElem?_map]
  by_cases hi : i < bytes.length
  · have hget : ((o.sections name).drop offset)[i]? = some bytes[i] := by
      rw [← hbytes, List.getElem?_append_left hi, List.getElem?_eq_getElem hi]
    rw [List.getElem?_drop] at hget
    obtain ⟨hlt, hvalue⟩ := List.getElem?_eq_some_iff.mp hget
    rw [List.getElem?_range hi, Option.map_some, Nat.add_assoc, m.holds name _ hlt, hvalue,
      List.getElem?_eq_getElem hi]
  · rw [List.getElem?_eq_none (by simpa using hi), List.getElem?_eq_none (by omega)]
    rfl

/-- An object of one section is in memory where the bytes of that section are, if that is at
its boundary. -/
def within {name : List Char} (h : o.Within name) {a : Nat} (ha : o.alignment name ∣ a)
    (hbytes : ∀ i (hi : i < (o.sections name).length),
      memory (a + i) = (o.sections name)[i]) : Loaded o memory where
  base _ := a
  aligned other := by
    by_cases hother : other = name
    · exact hother ▸ ha
    · rw [h.alignment other hother]
      exact Nat.one_dvd a
  holds other i hi := by
    by_cases hother : other = name
    · subst hother
      exact hbytes i hi
    · rw [h.sections other hother] at hi
      cases hi

theorem dvd_address {boundary a : Nat} (h : o.Aligned symbol boundary)
    (ha : m.address symbol = some a) : boundary ∣ a := by
  obtain ⟨name, offset, hsymbol, halign, hoffset⟩ := h
  rw [address, hsymbol] at ha
  obtain rfl := Option.some.inj ha
  exact Nat.dvd_add (Nat.dvd_trans halign (m.aligned name)) hoffset

end Loaded

end Assembly
