import Konative.Lib.Assembly
import Konative.Android.OnLoad

/-!
# Embedded blobs

`konative_embed_binary_blob` puts a file into the library.  A script that runs at build time
writes an assembly file: a label, `.incbin` of the file, a label, the distance between them,
and with `VERIFY_SHA256` the digest that the file had when the script ran.  `JNI_OnLoad` reads
these symbols, hashes the bytes again and compares.

So three readers have to agree: CMake, which writes the digest as text; the assembler, which
reads that text and the file, maybe later; and the C++ code, which sees only memory.  They do:
the library holds the file as the assembler found it, and the check passes if and only if that
file hashes to what the script saw (`embedded`).

The digest is a parameter, as are the assembler's files and its escapes.
-/

namespace Konative.Build

open Assembly

/-! ## KonativeGenerateIncbinAsm.cmake -/

/-- A digit of what `file(SHA256 ...)` gives. -/
def hexDigit (n : Nat) : Char := if n < 10 then Char.ofNat (48 + n) else Char.ofNat (87 + n)

def hexPair (b : UInt8) : List Char := [hexDigit (b.toNat / 16), hexDigit (b.toNat % 16)]

/-- The text of a digest. -/
def hexText (digest : Bytes) : List Char := digest.flatMap hexPair

/-- The literals of `_byte_lines`: `foreach(_i RANGE 0 62 2)`. -/
def byteLines (hashHex : List Char) : List (List Char) :=
  (List.range 32).map fun k ↦ "0x".toList ++ (hashHex.drop (2 * k)).take 2

variable (symbol : List Char)

def startOf : List Char := symbol ++ "_start".toList
def endOf : List Char := symbol ++ "_end".toList
def sizeOf : List Char := symbol ++ "_size".toList
def expectedSha256Of : List Char := symbol ++ "_expected_sha256".toList

/-- `_sha256_asm`. -/
def sha256Asm : Option (List Char) → List Statement
  | none => []
  | some hashHex =>
      .balign 8 :: .global (expectedSha256Of symbol) :: .label (expectedSha256Of symbol) ::
        (byteLines hashHex).map .byte

/-- The file that is written; the hash is there with `KONATIVE_VERIFY_SHA256`. -/
def generateIncbinAsm (path : List Char) (hashHex : Option (List Char)) : List Statement :=
  .inSection (".rodata.konative.".toList ++ symbol) "a".toList ::
  .balign 16 ::
  .global (startOf symbol) :: .label (startOf symbol) ::
  .incbin path ::
  .global (endOf symbol) :: .label (endOf symbol) ::
  .balign 8 ::
  .global (sizeOf symbol) :: .label (sizeOf symbol) ::
  .distance (endOf symbol) (startOf symbol) ::
  (sha256Asm symbol hashHex ++ [.inSection ".note.GNU-stack".toList []])

/-- What the C++ code makes of the symbols of a blob. -/
def blobAt {o : Object} {memory : Nat → UInt8} (m : Loaded o memory) : Option Android.Blob := do
  let start ← m.address (startOf symbol)
  let size ← m.address (sizeOf symbol)
  let expected ← m.address (expectedSha256Of symbol)
  some ⟨start, read memory start (Codec.leNat (read memory size 8)), read memory expected 32⟩

/-! ## The digest -/

variable {symbol}

theorem hexValue_hexDigit : ∀ n < 16, hexValue (hexDigit n) = some n := by decide

/-- The assembler reads the byte that CMake wrote. -/
theorem byteValue_hexPair (b : UInt8) : byteValue ("0x".toList ++ hexPair b) = some b := by
  have hlt := b.toNat_lt
  show (do
    let h ← hexValue (hexDigit (b.toNat / 16))
    let l ← hexValue (hexDigit (b.toNat % 16))
    some (UInt8.ofNat (16 * h + l))) = _
  rw [hexValue_hexDigit _ (by omega), hexValue_hexDigit _ (by omega)]
  show some (UInt8.ofNat (16 * (b.toNat / 16) + b.toNat % 16)) = _
  rw [Nat.div_add_mod, UInt8.ofNat_toNat]

/-- The substring of a byte. -/
theorem take_drop_hexText {digest : Bytes} {k : Nat} (h : k < digest.length) :
    ((hexText digest).drop (2 * k)).take 2 = hexPair digest[k] := by
  induction digest generalizing k with
  | nil => cases h
  | cons b digest ih =>
      cases k with
      | zero => rfl
      | succ k => exact ih (Nat.lt_of_succ_lt_succ h)

theorem byteLines_hexText {digest : Bytes} (h : digest.length = 32) :
    (byteLines (hexText digest)).map byteValue = digest.map some := by
  apply List.ext_getElem
  · simp [byteLines, h]
  · intro k hk hk'
    have hlt : k < digest.length := by simpa using hk'
    simp only [byteLines, List.getElem_map, List.getElem_range]
    rw [take_drop_hexText hlt, byteValue_hexPair]

/-! ## The object file -/

/-- A file that is embedded with `VERIFY_SHA256`. -/
structure EmbeddedBlob where
  symbol : List Char
  path : List Char
  /-- What it holds when the script runs. -/
  generated : Bytes
  /-- What it holds when the assembly file is assembled. -/
  assembled : Bytes

namespace EmbeddedBlob

variable (hash256 : Bytes → Bytes) (e : EmbeddedBlob)

/-- The assembly file. -/
def file : List Statement :=
  generateIncbinAsm e.symbol e.path (some (hexText (hash256 e.generated)))

/-- What the assembler is to find: the file, and its path as it is written.  A path without
backslashes, as `file(TO_CMAKE_PATH)` leaves it, has no escapes. -/
structure Found (host : Host) : Prop where
  path : host.unescape e.path = some e.path
  content : host.content e.path = some e.assembled
  fits : e.assembled.length < 2 ^ 64

/-- What follows the prefix. -/
def suffixes : List (List Char) :=
  ["_start".toList, "_end".toList, "_size".toList, "_expected_sha256".toList]

theorem suffixes_ne_nil : ∀ x ∈ suffixes, x ≠ [] := by decide

/-- No two suffixes end alike. -/
theorem suffixes_getLast_inj :
    ∀ x ∈ suffixes, ∀ y ∈ suffixes, x.getLast? = y.getLast? → x = y := by decide

def symbols : List (List Char) :=
  [startOf e.symbol, endOf e.symbol, sizeOf e.symbol, expectedSha256Of e.symbol]

/-- The embedding is in an object. -/
structure In (o : Object) : Prop where
  start : o.Holds (startOf e.symbol) e.assembled
  aligned : o.Aligned (startOf e.symbol) 16
  size : ∃ b, o.Holds (sizeOf e.symbol) (quad (b + e.assembled.length) b)
  expected : o.Holds (expectedSha256Of e.symbol) (hash256 e.generated)
  symbols : ∀ s, o.symbols s ≠ none ↔ s ∈ e.symbols

/-- At the label of the blob. -/
def started : Object :=
  ((Object.empty.enter (".rodata.konative.".toList ++ e.symbol)).align 16).place (startOf e.symbol)

/-- At the label after it. -/
def ended : Object := (e.started.append e.assembled).place (endOf e.symbol)

/-- At the label of the size. -/
def sized : Object := (e.ended.align 8).place (sizeOf e.symbol)

/-- At the label of the digest. -/
def hashed : Object :=
  ((e.sized.append (quad (e.started.here + e.assembled.length) e.started.here)).align 8).place
    (expectedSha256Of e.symbol)

/-- The object that the file becomes. -/
def object : Object := (e.hashed.append (hash256 e.generated)).enter ".note.GNU-stack".toList

variable {e}

/-- The names differ: no suffix is another. -/
theorem symbol_ne {x y : List Char} (h : x ≠ y) : e.symbol ++ x ≠ e.symbol ++ y :=
  fun heq ↦ h (List.append_cancel_left heq)

theorem started_symbols :
    e.started.symbols = Function.update (fun _ ↦ none) (startOf e.symbol)
      (some (e.started.current, e.started.here)) := by
  rw [started, Object.symbols_place, Object.symbols_align, Object.symbols_enter,
    Object.current_place, Object.here_place]
  rfl

theorem ended_symbols :
    e.ended.symbols = Function.update e.started.symbols (endOf e.symbol)
      (some (e.started.current, e.started.here + e.assembled.length)) := by
  rw [ended, Object.symbols_place, Object.here_append]
  rfl

theorem sized_symbols : ∃ p, e.sized.symbols =
    Function.update e.ended.symbols (sizeOf e.symbol) (some p) := by
  rw [sized, Object.symbols_place, Object.symbols_align]
  exact ⟨_, rfl⟩

/-- Each label is new where it is put. -/
theorem symbols_new :
    e.started.symbols (endOf e.symbol) = none ∧ e.ended.symbols (sizeOf e.symbol) = none ∧
      e.sized.symbols (expectedSha256Of e.symbol) = none := by
  obtain ⟨p, hsized⟩ := e.sized_symbols
  have hstart : ∀ x, x ≠ "_start".toList → e.started.symbols (e.symbol ++ x) = none := by
    intro x hx
    rw [started_symbols, startOf, Function.update_of_ne (symbol_ne hx)]
  have hended : ∀ x, x ≠ "_start".toList → x ≠ "_end".toList →
      e.ended.symbols (e.symbol ++ x) = none := by
    intro x hx hx'
    rw [ended_symbols, endOf, Function.update_of_ne (symbol_ne hx'), hstart x hx]
  refine ⟨hstart _ (by decide), hended _ (by decide) (by decide), ?_⟩
  rw [hsized, sizeOf, expectedSha256Of, Function.update_of_ne (symbol_ne (by decide)),
    hended _ (by decide) (by decide)]

/-- The assembly file is accepted, and this is what it becomes. -/
theorem assemble_file {host : Host} (hfound : e.Found host)
    (hlength : (hash256 e.generated).length = 32) :
    assemble host .empty (e.file hash256) = some (e.object hash256) := by
  obtain ⟨hend, hsize, hexpected⟩ := e.symbols_new
  rw [← Object.symbols_append _ e.assembled] at hend
  rw [← Object.symbols_align _ 8] at hsize
  rw [← Object.symbols_append _ (quad (e.started.here + e.assembled.length) e.started.here),
    ← Object.symbols_align _ 8] at hexpected
  rw [file, generateIncbinAsm, assemble_inSection, assemble_balign, assemble_symbol rfl]
  show assemble host e.started _ = _
  rw [assemble_incbin hfound.path hfound.content, assemble_symbol hend]
  show assemble host e.ended _ = _
  rw [assemble_balign, assemble_symbol hsize]
  show assemble host e.sized _ = _
  obtain ⟨p, hsized⟩ := e.sized_symbols
  have hstopAt : e.sized.symbols (endOf e.symbol) =
      some (e.started.current, e.started.here + e.assembled.length) := by
    rw [hsized, sizeOf, endOf, Function.update_of_ne (symbol_ne (by decide)), ended_symbols,
      endOf, Function.update_self]
  have hstartAt : e.sized.symbols (startOf e.symbol) =
      some (e.started.current, e.started.here) := by
    rw [hsized, sizeOf, startOf, Function.update_of_ne (symbol_ne (by decide)), ended_symbols,
      endOf, Function.update_of_ne (symbol_ne (by decide)), started_symbols, startOf,
      Function.update_self]
  rw [assemble_distance hstopAt hstartAt, sha256Asm, List.cons_append, assemble_balign,
    List.cons_append, List.cons_append, assemble_symbol hexpected]
  show assemble host e.hashed _ = _
  rw [assemble_bytes (byteLines_hexText hlength)]
  rfl

/-! ## What is in it -/

/-- The object at each label is in the object at the next. -/
theorem labels_le :
    (e.started.append e.assembled).Le e.ended ∧ e.ended.Le e.sized ∧
      (e.sized.append (quad (e.started.here + e.assembled.length) e.started.here)).Le e.hashed ∧
      (e.hashed.append (hash256 e.generated)).Le (e.object hash256) := by
  obtain ⟨hend, hsize, hexpected⟩ := e.symbols_new
  refine ⟨.place ?_, (Object.Le.align ..).trans (.place ?_),
    (Object.Le.align ..).trans (.place ?_), .enter ..⟩
  · rw [Object.symbols_append, hend]
  · rw [Object.symbols_align, hsize]
  · rw [Object.symbols_align, Object.symbols_append, hexpected]

theorem object_symbols_ne_none {s : List Char} :
    (e.object hash256).symbols s ≠ none ↔ s ∈ e.symbols := by
  rw [object, Object.symbols_enter, Object.symbols_append, hashed, Object.symbols_place_ne_none,
    Object.symbols_align, Object.symbols_append, sized, Object.symbols_place_ne_none,
    Object.symbols_align, ended, Object.symbols_place_ne_none, Object.symbols_append, started,
    Object.symbols_place_ne_none, symbols, List.mem_cons, List.mem_cons, List.mem_cons,
    List.mem_singleton]
  constructor
  · rintro (h | h | h | h | h)
    exacts [.inr (.inr (.inr h)), .inr (.inr (.inl h)), .inr (.inl h), .inl h, absurd rfl h]
  · rintro (h | h | h | h)
    exacts [.inr (.inr (.inr (.inl h))), .inr (.inr (.inl h)), .inr (.inl h), .inl h]

theorem object_in : e.In hash256 (e.object hash256) := by
  obtain ⟨hended, hsized, hhashed, hobject⟩ := e.labels_le hash256
  have hdigest : e.hashed.Le (e.object hash256) := (Object.Le.append ..).trans hobject
  have hsize := hhashed.trans hdigest
  have hend := hended.trans (hsized.trans ((Object.Le.append ..).trans hsize))
  refine ⟨(Object.holds_append ..).mono hend, ?_, ⟨e.started.here, ?_⟩, ?_, fun s ↦
    e.object_symbols_ne_none hash256⟩
  · exact (Object.aligned_place _ _ (by decide)).mono ((Object.Le.append ..).trans hend)
  · exact (Object.holds_append ..).mono hsize
  · exact (Object.holds_append ..).mono hobject

/-- All of it is in one section, at a boundary of 16. -/
theorem object_within : (e.object hash256).Within (".rodata.konative.".toList ++ e.symbol) := by
  have hstarted := ((Object.Within.empty.enter (".rodata.konative.".toList ++ e.symbol)).align
    rfl 16).place (startOf e.symbol)
  have hended := (hstarted.append rfl e.assembled).place (endOf e.symbol)
  have hsized := (hended.align rfl 8).place (sizeOf e.symbol)
  have hhashed := ((hsized.append rfl (quad (e.started.here + e.assembled.length)
    e.started.here)).align rfl 8).place (expectedSha256Of e.symbol)
  exact (hhashed.append rfl (hash256 e.generated)).enter _

theorem alignment_object :
    (e.object hash256).alignment (".rodata.konative.".toList ++ e.symbol) = 16 := by
  have hstarted := (Object.empty.enter (".rodata.konative.".toList ++ e.symbol)).alignment_align 16
  have hsized := e.ended.alignment_align 8
  have hhashed := (e.sized.append (quad (e.started.here + e.assembled.length)
    e.started.here)).alignment_align 8
  have hlcm : Nat.lcm (Nat.lcm (Nat.lcm 1 16) 8) 8 = 16 := by decide
  exact hhashed.trans ((congrArg (Nat.lcm · 8) (hsized.trans
    (congrArg (Nat.lcm · 8) hstarted))).trans hlcm)

/-- Two files with different prefixes define no symbol twice. -/
theorem symbols_disjoint {e' : EmbeddedBlob} (hne : e.symbol ≠ e'.symbol) {s : List Char}
    (hs : s ∈ e.symbols) : s ∉ e'.symbols := by
  intro hs'
  have hsplit : ∀ {e : EmbeddedBlob}, s ∈ e.symbols → ∃ x ∈ suffixes, s = e.symbol ++ x := by
    intro e hs
    rw [symbols, List.mem_cons, List.mem_cons, List.mem_cons, List.mem_singleton] at hs
    obtain rfl | rfl | rfl | rfl := hs
    exacts [⟨"_start".toList, by decide, rfl⟩, ⟨"_end".toList, by decide, rfl⟩,
      ⟨"_size".toList, by decide, rfl⟩, ⟨"_expected_sha256".toList, by decide, rfl⟩]
  obtain ⟨x, hx, rfl⟩ := hsplit hs
  obtain ⟨y, hy, heq⟩ := hsplit hs'
  have hlast := congrArg List.getLast? heq
  rw [List.getLast?_append_of_ne_nil _ (suffixes_ne_nil x hx),
    List.getLast?_append_of_ne_nil _ (suffixes_ne_nil y hy)] at hlast
  obtain rfl := suffixes_getLast_inj x hx y hy hlast
  exact hne (List.append_cancel_right heq)

/-! ## In the process -/

/-- The C++ code finds the file as the assembler found it, and the digest that the script
saw. -/
theorem In.blobAt_eq {o : Object} {memory : Nat → UInt8} (h : e.In hash256 o)
    (hfits : e.assembled.length < 2 ^ 64) (hlength : (hash256 e.generated).length = 32)
    (m : Loaded o memory) :
    ∃ address, blobAt e.symbol m = some ⟨address, e.assembled, hash256 e.generated⟩ ∧
      16 ∣ address := by
  obtain ⟨start, hstart, hdata⟩ := m.read_eq h.start
  obtain ⟨b, hsize⟩ := h.size
  obtain ⟨size, hsizeAt, hquad⟩ := m.read_eq hsize
  obtain ⟨expected, hexpected, hdigest⟩ := m.read_eq h.expected
  refine ⟨start, ?_, m.dvd_address h.aligned hstart⟩
  rw [hlength] at hdigest
  rw [quad, Codec.length_leBytes, ← quad] at hquad
  rw [blobAt, hstart, hsizeAt, hexpected]
  simp only [Option.bind_eq_bind, Option.bind_some]
  rw [hquad, leNat_quad b hfits, hdata, hdigest]

/-- The check passes if and only if what was assembled hashes to what the script saw. -/
theorem verifyBlob_iff {b : Android.Blob} {address : Nat}
    (hb : b = ⟨address, e.assembled, hash256 e.generated⟩) :
    Android.verifyBlob hash256 b = true ↔ hash256 e.assembled = hash256 e.generated := by
  rw [hb, Android.verifyBlob, beq_iff_eq]

end EmbeddedBlob

open EmbeddedBlob Android

/-- `JNI_OnLoad` loads only a dex that passes its check. -/
theorem verifyBlob_of_jniOnLoad {hash256 : Bytes → Bytes} {e : Launch} {r : Handoff}
    (h : jniOnLoad hash256 e = some r) : verifyBlob hash256 e.dex = true := by
  by_contra hverified
  rw [Bool.not_eq_true] at hverified
  rw [jniOnLoad, hverified] at h
  split at h <;> cases h

/-- It hands over only resources that pass theirs. -/
theorem verifyBlob_of_resourcesBuffer {hash256 : Bytes → Bytes} {e : Launch} {r : Handoff}
    (h : jniOnLoad hash256 e = some r) (hbuffer : r.resourcesBuffer.1 ≠ none) :
    verifyBlob hash256 e.resources = true := by
  by_contra hverified
  rw [Bool.not_eq_true] at hverified
  apply hbuffer
  rw [eq_handoff h, handoff, hverified]
  rfl

/-- The dex and the resources are embedded, each under its own symbols, and in whatever way
they are loaded, `JNI_OnLoad` finds the two files as the assembler found them.  It goes on with
the dex only if that file hashes to what its script saw, and hands over no resources if theirs
do not; a file that has not changed between its script and the assembler passes. -/
theorem embedded {hash256 : Bytes → Bytes} (hlength : ∀ bs, (hash256 bs).length = 32)
    {host : Host} {dex resources : EmbeddedBlob} (hne : dex.symbol ≠ resources.symbol)
    (hdex : dex.Found host) (hresources : resources.Found host) :
    ∃ o o', assemble host .empty (dex.file hash256) = some o ∧
      assemble host .empty (resources.file hash256) = some o' ∧
      (∀ s, o.symbols s = none ∨ o'.symbols s = none) ∧
      ∀ memory (m : Loaded o memory) (m' : Loaded o' memory), ∃ b b',
        blobAt dex.symbol m = some b ∧ blobAt resources.symbol m' = some b' ∧
        b.data = dex.assembled ∧ b'.data = resources.assembled ∧
        16 ∣ b.address ∧ 16 ∣ b'.address ∧
        (dex.generated = dex.assembled → verifyBlob hash256 b = true) ∧
        (resources.generated = resources.assembled → verifyBlob hash256 b' = true) ∧
        ∀ e : Launch, e.dex = b → e.resources = b' → ∀ r, jniOnLoad hash256 e = some r →
          hash256 dex.assembled = hash256 dex.generated ∧
          (r.resourcesBuffer.1 ≠ none →
            hash256 resources.assembled = hash256 resources.generated) := by
  refine ⟨dex.object hash256, resources.object hash256, assemble_file hash256 hdex (hlength _),
    assemble_file hash256 hresources (hlength _), fun s ↦ ?_, fun memory m m' ↦ ?_⟩
  · by_contra h
    rw [not_or] at h
    exact symbols_disjoint hne ((object_symbols_ne_none hash256).mp h.1)
      ((object_symbols_ne_none hash256).mp h.2)
  · obtain ⟨a, hb, ha⟩ := (object_in hash256).blobAt_eq hash256 hdex.fits (hlength _) m
    obtain ⟨a', hb', ha'⟩ :=
      (object_in hash256).blobAt_eq hash256 hresources.fits (hlength _) m'
    refine ⟨_, _, hb, hb', rfl, rfl, ha, ha', fun h ↦ ?_, fun h ↦ ?_, ?_⟩
    · rw [verifyBlob_iff hash256 rfl, h]
    · rw [verifyBlob_iff hash256 rfl, h]
    intro e hdex' hresources' r hr
    constructor
    · exact (verifyBlob_iff hash256 hdex').mp (verifyBlob_of_jniOnLoad hr)
    · exact fun hbuffer ↦
        (verifyBlob_iff hash256 hresources').mp (verifyBlob_of_resourcesBuffer hr hbuffer)

/-! ## A dex and a resource table -/

namespace Example

/-- The first bytes of a dex. -/
def dexBytes : Bytes := [0x64, 0x65, 0x78, 0x0a, 0x30, 0x33, 0x35, 0x00]

/-- The first bytes of a resource table. -/
def tableBytes : Bytes := [0x02, 0x00, 0x0c, 0x00]

/-- SHA-256 of these two, and of no bytes for all the others. -/
def sha256 (bytes : Bytes) : Bytes :=
  if bytes = dexBytes then
    [0x2c, 0x54, 0xa4, 0xc5, 0x11, 0x92, 0x60, 0x16, 0x74, 0x62, 0x3d, 0x24, 0x7e, 0x82, 0x7f,
      0xf8, 0xfc, 0xee, 0x72, 0x12, 0xed, 0xa7, 0xfe, 0xd6, 0xba, 0xb5, 0xa4, 0xe9, 0x59, 0xac,
      0xe5, 0x8e]
  else if bytes = tableBytes then
    [0xc1, 0xb0, 0x9e, 0x5d, 0xcb, 0x8b, 0x91, 0x85, 0xf6, 0x3c, 0xfe, 0x8d, 0x44, 0x79, 0x94,
      0x19, 0x37, 0x06, 0xd3, 0xb2, 0x12, 0x64, 0x03, 0x88, 0xe4, 0x24, 0x4a, 0x9e, 0x74, 0x75,
      0x5f, 0xbe]
  else emptySha256

theorem length_sha256 (bytes : Bytes) : (sha256 bytes).length = 32 := by
  unfold sha256
  split
  · rfl
  · split
    · rfl
    · rfl

def dex : EmbeddedBlob := ⟨"konative_app_dex".toList, "classes.dex".toList, dexBytes, dexBytes⟩

/-- The resources, which were this when their script ran. -/
def resources (generated : Bytes) : EmbeddedBlob :=
  ⟨"konative_app_dex_resources".toList, "resources.arsc".toList, generated, tableBytes⟩

def host : Host :=
  ⟨some, fun path ↦ some (if path = "classes.dex".toList then dexBytes else tableBytes)⟩

/-- The bytes of an object. -/
def bytes (e : EmbeddedBlob) : Bytes :=
  (e.object sha256).sections (".rodata.konative.".toList ++ e.symbol)

/-- The memory of a process with both objects in it. -/
def memory (generated : Bytes) : Nat → UInt8 :=
  store 8192 (bytes (resources generated)) (store 4096 (bytes dex) fun _ ↦ 0)

def loadedDex (generated : Bytes) : Loaded (dex.object sha256) (memory generated) :=
  .within (dex.object_within sha256) (a := 4096) (by rw [alignment_object]; decide) fun i hi ↦ by
    have hlt : i < 4096 := hi.trans (by decide : (bytes dex).length < 4096)
    rw [memory, store_of_lt (by omega)]
    exact store_add 4096 _ hi

def loadedResources (generated : Bytes) :
    Loaded ((resources generated).object sha256) (memory generated) :=
  .within ((resources generated).object_within sha256) (a := 8192)
    (by rw [alignment_object]; decide) fun _ hi ↦ store_add 8192 _ hi

/-- A process whose calls all succeed, with these files in its memory. -/
def launch (generated : Bytes) : Launch where
  getEnv := true
  dex := ⟨4096, dexBytes, sha256 dexBytes⟩
  resources := ⟨8192, tableBytes, sha256 generated⟩
  behaviour _ _ := ⟨true, false, "/data"⟩

/-- The C++ code finds these blobs, and `JNI_OnLoad` goes on with the dex, and with a buffer
of the resources or none. -/
structure Starts (generated : Bytes) (buffer : Bool) : Prop where
  dex : blobAt dex.symbol (loadedDex generated) = some (launch generated).dex
  resources : blobAt (resources generated).symbol (loadedResources generated) =
    some (launch generated).resources
  verified : verifyBlob sha256 (launch generated).dex = true
  handsOver : ∃ r, jniOnLoad sha256 (launch generated) = some r ∧
    r.resourcesBuffer.1.isSome = buffer

end Example

open Example

/-- With both files unchanged both are handed over; with the resources changed since their
script ran, the dex alone is. -/
theorem embedded_files : Starts tableBytes true ∧ Starts [] false := by
  have hdex : dex.Found host := ⟨rfl, rfl, by decide⟩
  have hresources : ∀ generated, (resources generated).Found host := fun _ ↦
    ⟨rfl, rfl, (by decide : tableBytes.length < 2 ^ 64)⟩
  have hne : dex.symbol ≠ (resources []).symbol := by decide
  have hkey : ∀ generated, blobAt dex.symbol (loadedDex generated) = some (launch generated).dex →
      blobAt (resources generated).symbol (loadedResources generated) =
        some (launch generated).resources →
      verifyBlob sha256 (launch generated).dex = true ∧
        ∀ r, jniOnLoad sha256 (launch generated) = some r → r.resourcesBuffer.1 ≠ none →
          sha256 tableBytes = sha256 generated := by
    intro generated hb hb'
    obtain ⟨o, o', ho, ho', -, hloaded⟩ := embedded length_sha256
      (show dex.symbol ≠ (resources generated).symbol from hne) hdex (hresources generated)
    obtain rfl := Option.some.inj ((assemble_file sha256 hdex (length_sha256 _)).symm.trans ho)
    obtain rfl := Option.some.inj
      ((assemble_file sha256 (hresources generated) (length_sha256 _)).symm.trans ho')
    obtain ⟨b, b', h, h', -, -, -, -, hpass, -, hload⟩ :=
      hloaded (memory generated) (loadedDex generated) (loadedResources generated)
    obtain rfl := Option.some.inj (hb.symm.trans h)
    obtain rfl := Option.some.inj (hb'.symm.trans h')
    exact ⟨hpass rfl, fun r hr ↦ (hload (launch generated) rfl rfl r hr).2⟩
  constructor
  · exact ⟨rfl, rfl, (hkey tableBytes rfl rfl).1, _, rfl, rfl⟩
  · obtain ⟨hverified, hbuffer⟩ := hkey [] rfl rfl
    refine ⟨rfl, rfl, hverified, _, rfl, ?_⟩
    rw [← Bool.not_eq_true, Option.isSome_iff_ne_none]
    exact fun h ↦ absurd (hbuffer _ rfl h) (by decide)

end Konative.Build
