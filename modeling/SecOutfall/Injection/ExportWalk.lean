import SecOutfall.Injection.LoadStub

/-! `ResolveLdrLoadDllRva` (`driver/secoutfall/Injection.cpp`): the export directory of a mapped image, read through
`MmCopyVirtualMemory`, and what an image that exports `LdrLoadDll` makes of it. -/
namespace SecOutfall.Injection
open Bytes Control Runs
set_option autoImplicit false

/-! ## Copies -/

/-- What one call answered: its status, and the bytes that reached the buffer. -/
structure CopyAnswer where
  success : Bool
  bytes : List UInt8

/-- The answer to the n-th call, by address and size; the image may change between two of them. -/
abbrev Reader := ℕ → UInt64 → ℕ → CopyAnswer

/-- Status and count checked. -/
def CopyAnswer.whole (copied : CopyAnswer) (size : ℕ) : Option (List UInt8) :=
  if copied.success && copied.bytes.length == size then some copied.bytes else none

def wordAt (bytes : List UInt8) (off size : ℕ) : ℕ := leValue (slice bytes off size)

/-! ## Headers -/

def imageDosSignature : ℕ := 0x5A4D
def imageNtSignature : ℕ := 0x4550
def imageNtOptionalHdr64Magic : ℕ := 0x20B

/-- `sizeof(IMAGE_NT_HEADERS64)`. -/
def ntHeadersSize : ℕ := 264

/-- `sizeof(IMAGE_EXPORT_DIRECTORY)`. -/
def exportDirectorySize : ℕ := 40

/-- The address of the export directory, past all checks of the headers. -/
def exportDirectoryRva (headerPage : List UInt8) : Option UInt32 :=
  let ntRva := wordAt headerPage 0x3C 4
  if wordAt headerPage 0 2 ≠ imageDosSignature then none
  -- `e_lfanew` is a LONG: from 2^31 on it is negative
  else if ntRva = 0 ∨ 2 ^ 31 ≤ ntRva ∨ headerPage.length < ntRva + ntHeadersSize then none
  else if wordAt headerPage ntRva 4 ≠ imageNtSignature ∨
      wordAt headerPage (ntRva + 24) 2 ≠ imageNtOptionalHdr64Magic then none
  else if wordAt headerPage (ntRva + 136) 4 = 0 ∨ wordAt headerPage (ntRva + 140) 4 < exportDirectorySize then none
  else some (.ofNat (wordAt headerPage (ntRva + 136) 4))

structure ExportDirectory where
  numberOfNames : ℕ
  addressOfFunctions : UInt32
  addressOfNames : UInt32
  addressOfNameOrdinals : UInt32

def exportDirectory (bytes : List UInt8) : ExportDirectory :=
  ⟨wordAt bytes 24 4, .ofNat (wordAt bytes 28 4), .ofNat (wordAt bytes 32 4), .ofNat (wordAt bytes 36 4)⟩

/-! ## Names -/

def target : List UInt8 := [0x4C, 0x64, 0x72, 0x4C, 0x6F, 0x61, 0x64, 0x44, 0x6C, 0x6C]

/-- `strncmp(a, b, n) == 0`; a list ends where its string is terminated. -/
def strncmpEqual : ℕ → List UInt8 → List UInt8 → Bool
  | 0, _, _ => true
  | n + 1, a, b => a.headD 0 == b.headD 0 && (a.headD 0 == 0 || strncmpEqual n a.tail b.tail)

section
variable (read : Reader) (base : UInt64) (dir : ExportDirectory)

/-- The function behind the i-th name: its index, then its address. -/
def functionOf (i : ℕ) : Option UInt32 :=
  match (read (i + 4) (base + dir.addressOfNameOrdinals.toUInt64 + .ofNat (2 * i)) 2).whole 2 with
  | none => none
  | some ordinalIndex =>
    match (read (i + 5) (base + dir.addressOfFunctions.toUInt64 + .ofNat (4 * leValue ordinalIndex)) 4).whole 4 with
    | none => none
    | some functionRva => if leValue functionRva = 0 then none else some (.ofNat (leValue functionRva))

/-- The loop over the names from the i-th on. A name that cannot be copied is skipped, one that matches ends it. -/
def walkNames (i : ℕ) : List UInt32 → Option UInt32
  | [] => none
  | nameRva :: nameRvas =>
    let copied := read (i + 3) (base + nameRva.toUInt64) 31
    let name := copied.bytes ++ List.replicate (32 - copied.bytes.length) 0
    if !copied.success || !strncmpEqual target.length name target then walkNames (i + 1) nameRvas
    else functionOf read base dir i

end

def resolveLdrLoadDllRva (read : Reader) (allocated : Bool) (base : UInt64) : Option UInt32 := do
  let headerPage ← (read 0 base 4096).whole 4096
  let directoryRva ← exportDirectoryRva headerPage
  let bytes ← (read 1 (base + directoryRva.toUInt64) exportDirectorySize).whole exportDirectorySize
  let dir := exportDirectory bytes
  if dir.numberOfNames = 0 ∨ 100000 < dir.numberOfNames then none
  else if !allocated then none
  else
    let names ← (read 2 (base + dir.addressOfNames.toUInt64) (4 * dir.numberOfNames)).whole (4 * dir.numberOfNames)
    walkNames read base dir 0 ((List.range dir.numberOfNames).map fun i => .ofNat (wordAt names (4 * i) 4))

/-! ## Images -/

/-- An image that stays as it is. A copy that meets an address without a page fails part way. -/
def imageReader (m : Memory) (mapped : ℕ → Bool) : Reader := fun _ address size =>
  if (List.range size).all fun i => mapped (address.toNat + i) then ⟨true, m.read address.toNat size⟩
  else ⟨false, (((List.range size).map fun i => address.toNat + i).takeWhile mapped).map fun a => m a⟩

/-- An entry of the name table. -/
structure Export where
  name : List UInt8
  nameRva : UInt32
  ordinal : UInt16
  function : UInt32
  deriving DecidableEq, Repr

/-- The n bytes at an address spell a number. -/
def HasWord (m : Memory) (mapped : ℕ → Bool) (off size v : ℕ) : Prop :=
  (∀ i < size, mapped (off + i)) ∧ leValue (m.read off size) = v

/-- The i-th entry of the tables behind a directory. -/
structure HasEntry (m : Memory) (mapped : ℕ → Bool) (base : ℕ) (dir : ExportDirectory) (i : ℕ) (e : Export) :
    Prop where
  ordinal : HasWord m mapped (base + dir.addressOfNameOrdinals.toNat + 2 * i) 2 e.ordinal.toNat
  function : HasWord m mapped (base + dir.addressOfFunctions.toNat + 4 * e.ordinal.toNat) 4 e.function.toNat
  name : m.read (base + e.nameRva.toNat) (e.name.length + 1) = e.name ++ [0]

/-- A 64-bit image at `base` that exports `exports` by name; nothing is said about the rest of it, nor about the
pages behind the names. -/
structure Presents (m : Memory) (mapped : ℕ → Bool) (base : UInt64) (ntRva : ℕ) (directoryRva : UInt32)
    (dir : ExportDirectory) (exports : List Export) : Prop where
  user : base.toNat < 2 ^ 63
  page : ∀ i < 4096, mapped (base.toNat + i)
  dos : HasWord m mapped base.toNat 2 imageDosSignature
  lfanew : HasWord m mapped (base.toNat + 0x3C) 4 ntRva
  nt_pos : 0 < ntRva
  nt_inside : ntRva + ntHeadersSize ≤ 4096
  nt : HasWord m mapped (base.toNat + ntRva) 4 imageNtSignature
  magic : HasWord m mapped (base.toNat + (ntRva + 24)) 2 imageNtOptionalHdr64Magic
  directory : HasWord m mapped (base.toNat + (ntRva + 136)) 4 directoryRva.toNat
  directory_ne : directoryRva ≠ 0
  size : exportDirectorySize ≤ leValue (m.read (base.toNat + (ntRva + 140)) 4)
  directory_page : ∀ i < exportDirectorySize, mapped (base.toNat + directoryRva.toNat + i)
  count : HasWord m mapped (base.toNat + directoryRva.toNat + 24) 4 dir.numberOfNames
  functions : HasWord m mapped (base.toNat + directoryRva.toNat + 28) 4 dir.addressOfFunctions.toNat
  names : HasWord m mapped (base.toNat + directoryRva.toNat + 32) 4 dir.addressOfNames.toNat
  ordinals : HasWord m mapped (base.toNat + directoryRva.toNat + 36) 4 dir.addressOfNameOrdinals.toNat
  length : exports.length = dir.numberOfNames
  few : dir.numberOfNames ≤ 100000
  name_rva : ∀ i (h : i < exports.length),
    HasWord m mapped (base.toNat + dir.addressOfNames.toNat + 4 * i) 4 exports[i].nameRva.toNat
  entry : ∀ i (h : i < exports.length), HasEntry m mapped base.toNat dir i exports[i]

/-- The 31 bytes the driver copies from a name are there. -/
def nameMapped (mapped : ℕ → Bool) (base : ℕ) (e : Export) : Bool :=
  (List.range 31).all fun i => mapped (base + e.nameRva.toNat + i)

/-- The first name that can be copied and begins with the driver's. -/
def firstMatch (mapped : ℕ → Bool) (base : ℕ) (exports : List Export) : Option Export :=
  exports.find? fun e => nameMapped mapped base e && target.isPrefixOf e.name

/-! ## Reading an image -/

variable {m : Memory} {mapped : ℕ → Bool}

theorem imageReader_eq {n : ℕ} {address : UInt64} {off size : ℕ} (hoff : address.toNat = off)
    (h : ∀ i < size, mapped (off + i)) : imageReader m mapped n address size = ⟨true, m.read off size⟩ := by
  have hall : (List.range size).all (fun i => mapped (off + i)) := by
    rw [List.all_eq_true]
    intro i hi
    exact h i (List.mem_range.mp hi)
  rw [imageReader, hoff, if_pos hall]

theorem imageReader_whole {n : ℕ} {address : UInt64} {off size : ℕ} (hoff : address.toNat = off)
    (h : ∀ i < size, mapped (off + i)) :
    (imageReader m mapped n address size).whole size = some (m.read off size) := by
  rw [imageReader_eq hoff h]
  simp [CopyAnswer.whole, Memory.read]

theorem wordAt_read (off : ℕ) {k size n : ℕ} (h : k + size ≤ n) :
    wordAt (m.read off n) k size = leValue (m.read (off + k) size) := by
  obtain ⟨rest, rfl⟩ := Nat.exists_eq_add_of_le (Nat.le_trans (Nat.le_add_right k size) h)
  rw [wordAt, slice, Memory.read_drop, Memory.read_take _ _ (by omega)]

/-! ## Comparing a name -/

theorem strncmpEqual_iff {b : List UInt8} (hb : 0 ∉ b) (a : List UInt8) :
    strncmpEqual b.length a b = true ↔ b <+: a := by
  induction b generalizing a with
  | nil => exact iff_of_true rfl (List.nil_prefix)
  | cons x b ih =>
    rw [List.mem_cons, not_or] at hb
    cases a with
    | nil =>
      have hx : ¬ (0 : UInt8) = x := hb.1
      simp [strncmpEqual, hx]
    | cons y a =>
      rw [List.length_cons, strncmpEqual, List.cons_prefix_cons, ← ih hb.2 a]
      simp only [List.headD_cons, List.tail_cons, Bool.and_eq_true, Bool.or_eq_true, beq_iff_eq]
      constructor
      · rintro ⟨rfl, rfl | hrest⟩
        · exact absurd rfl hb.1
        · exact ⟨rfl, hrest⟩
      · rintro ⟨rfl, hrest⟩
        exact ⟨rfl, Or.inr hrest⟩

/-- What a terminated name begins with shows in memory. -/
theorem read_eq_iff_prefix {off : ℕ} {name word : List UInt8}
    (hname : m.read off (name.length + 1) = name ++ [0]) (hword : 0 ∉ word) :
    m.read off word.length = word ↔ word <+: name := by
  constructor
  · intro hread
    by_cases hlen : word.length ≤ name.length
    · have htake := congrArg (List.take word.length) hname
      rw [Memory.read_take _ _ (by omega), hread, List.take_append_of_le_length hlen] at htake
      rw [htake]
      exact List.take_prefix _ _
    · -- the terminator of a shorter name would stand in the word
      have htake := congrArg (List.take (name.length + 1)) hread
      rw [Memory.read_take _ _ (by omega), hname] at htake
      have hzero : (0 : UInt8) ∈ word.take (name.length + 1) := by
        rw [← htake]
        exact List.mem_append_right _ (List.mem_singleton_self 0)
      exact absurd (List.mem_of_mem_take hzero) hword
  · intro hprefix
    have hlen := hprefix.length_le
    have htake := congrArg (List.take word.length) hname
    rw [Memory.read_take _ _ (by omega), List.take_append_of_le_length hlen] at htake
    rw [htake]
    exact (List.prefix_iff_eq_take.mp hprefix).symm

theorem target_no_nul : 0 ∉ target := by decide

/-- The comparison in the driver's buffer is one with the whole name. -/
theorem copied_name_matches {off : ℕ} {name : List UInt8} (hname : m.read off (name.length + 1) = name ++ [0])
    (padding : List UInt8) :
    strncmpEqual target.length (m.read off 31 ++ padding) target = target.isPrefixOf name := by
  rw [Bool.eq_iff_iff, strncmpEqual_iff target_no_nul, List.isPrefixOf_iff_prefix,
    ← read_eq_iff_prefix hname target_no_nul, List.prefix_iff_eq_take,
    List.take_append_of_le_length (by simp [Memory.read, target]), Memory.read_take _ _ (by decide)]
  exact eq_comm

/-! ## The walk over an image -/

section
variable {base : UInt64} {dir : ExportDirectory}

theorem address_toNat (hbase : base.toNat < 2 ^ 63) (rva : UInt32) {k : ℕ} (hk : k < 2 ^ 32) :
    (base + rva.toUInt64 + .ofNat k).toNat = base.toNat + rva.toNat + k := by
  have hrva := rva.toNat_lt
  rw [UInt64.toNat_add, UInt64.toNat_add, UInt32.toNat_toUInt64, UInt64.toNat_ofNat']
  omega

theorem rva_toNat (hbase : base.toNat < 2 ^ 63) (rva : UInt32) :
    (base + rva.toUInt64).toNat = base.toNat + rva.toNat := by
  have hrva := rva.toNat_lt
  rw [UInt64.toNat_add, UInt32.toNat_toUInt64]
  omega

theorem functionOf_image (hbase : base.toNat < 2 ^ 63) {i : ℕ} (hi : i < 100000) {e : Export}
    (he : HasEntry m mapped base.toNat dir i e) :
    functionOf (imageReader m mapped) base dir i = if e.function = 0 then none else some e.function := by
  have hordinal := e.ordinal.toNat_lt
  rw [functionOf, imageReader_whole (address_toNat hbase _ (by omega)) he.ordinal.1]
  simp only [he.ordinal.2]
  rw [imageReader_whole (address_toNat hbase _ (by omega)) he.function.1]
  simp only [he.function.2, UInt32.ofNat_toNat]
  have hzero : e.function.toNat = 0 ↔ e.function = 0 := by
    rw [← UInt32.toNat_inj]
    rfl
  simp only [hzero]

theorem walkNames_image (hbase : base.toNat < 2 ^ 63) (exports : List Export) (i : ℕ)
    (hcount : i + exports.length ≤ 100000)
    (h : ∀ k (hk : k < exports.length), HasEntry m mapped base.toNat dir (i + k) exports[k]) :
    walkNames (imageReader m mapped) base dir i (exports.map (·.nameRva)) =
      (firstMatch mapped base.toNat exports).bind fun e => if e.function = 0 then none else some e.function := by
  induction exports generalizing i with
  | nil => rfl
  | cons e exports ih =>
    rw [List.length_cons] at hcount
    have he : HasEntry m mapped base.toNat dir i e := h 0 (Nat.zero_lt_succ _)
    have hrest := ih (i + 1) (by omega) fun k hk => by
      have hindex : i + (k + 1) = i + 1 + k := by omega
      rw [← hindex]
      exact h (k + 1) (Nat.succ_lt_succ hk)
    rw [List.map_cons, walkNames, firstMatch, List.find?_cons]
    by_cases hmapped : nameMapped mapped base.toNat e
    · have hcopy : imageReader m mapped (i + 3) (base + e.nameRva.toUInt64) 31 =
          ⟨true, m.read (base.toNat + e.nameRva.toNat) 31⟩ := by
        apply imageReader_eq (rva_toNat hbase _)
        intro k hk
        exact List.all_eq_true.mp hmapped k (List.mem_range.mpr hk)
      simp only [hcopy, hmapped, Bool.true_and, Bool.not_true, Bool.false_or, copied_name_matches he.name]
      cases hmatch : target.isPrefixOf e.name with
      | true =>
        rw [if_neg (by decide), functionOf_image hbase (by omega) he]
        rfl
      | false =>
        rw [if_pos (by decide), hrest]
        rfl
    · -- a copy that fails is as good as a name that does not match
      have hcopy : (imageReader m mapped (i + 3) (base + e.nameRva.toUInt64) 31).success = false := by
        have hpages := hmapped
        rw [nameMapped] at hpages
        rw [imageReader, rva_toNat hbase, if_neg hpages]
      rw [Bool.not_eq_true] at hmapped
      simp only [hcopy, hmapped, Bool.not_false, Bool.true_or, if_true, Bool.false_and]
      rw [hrest]
      rfl

section
variable {ntRva : ℕ} {directoryRva : UInt32} {exports : List Export}

theorem Presents.exportDirectoryRva (h : Presents m mapped base ntRva directoryRva dir exports) :
    Injection.exportDirectoryRva (m.read base.toNat 4096) = some directoryRva := by
  have hinside := h.nt_inside
  have hsize : ntHeadersSize = 264 := rfl
  have hword : ∀ {k size : ℕ}, k + size ≤ 4096 →
      wordAt (m.read base.toNat 4096) k size = leValue (m.read (base.toNat + k) size) := wordAt_read _
  have hdos : wordAt (m.read base.toNat 4096) 0 2 = imageDosSignature := by
    rw [hword (by omega), Nat.add_zero]
    exact h.dos.2
  have hlfanew : wordAt (m.read base.toNat 4096) 0x3C 4 = ntRva := (hword (by omega)).trans h.lfanew.2
  have hnt : wordAt (m.read base.toNat 4096) ntRva 4 = imageNtSignature :=
    (hword (by omega)).trans h.nt.2
  have hmagic : wordAt (m.read base.toNat 4096) (ntRva + 24) 2 = imageNtOptionalHdr64Magic :=
    (hword (by omega)).trans h.magic.2
  have hdirectory : wordAt (m.read base.toNat 4096) (ntRva + 136) 4 = directoryRva.toNat :=
    (hword (by omega)).trans h.directory.2
  have hdirectorySize : exportDirectorySize ≤ wordAt (m.read base.toNat 4096) (ntRva + 140) 4 := by
    rw [hword (by omega)]
    exact h.size
  have hne : directoryRva.toNat ≠ 0 := fun h0 => h.directory_ne (UInt32.toNat_inj.mp h0)
  have hpos := h.nt_pos
  have hlength : (m.read base.toNat 4096).length = 4096 := by simp [Memory.read]
  simp only [Injection.exportDirectoryRva, hdos, hlfanew, hnt, hmagic, hdirectory, hlength, ne_eq, not_true_eq_false,
    or_self, if_false]
  rw [if_neg (by omega), if_neg (by omega), UInt32.ofNat_toNat]

theorem Presents.exportDirectory (h : Presents m mapped base ntRva directoryRva dir exports) :
    Injection.exportDirectory (m.read (base.toNat + directoryRva.toNat) exportDirectorySize) = dir := by
  have hword : ∀ {k : ℕ}, k + 4 ≤ exportDirectorySize →
      wordAt (m.read (base.toNat + directoryRva.toNat) exportDirectorySize) k 4 =
        leValue (m.read (base.toNat + directoryRva.toNat + k) 4) := wordAt_read _
  rw [Injection.exportDirectory, hword (by decide), hword (by decide), hword (by decide), hword (by decide),
    h.count.2, h.functions.2, h.names.2, h.ordinals.2, UInt32.ofNat_toNat, UInt32.ofNat_toNat, UInt32.ofNat_toNat]

/-- The copied table of name addresses. -/
theorem Presents.nameRvas (h : Presents m mapped base ntRva directoryRva dir exports) :
    ((List.range dir.numberOfNames).map fun i => UInt32.ofNat (wordAt
      (m.read (base.toNat + dir.addressOfNames.toNat) (4 * dir.numberOfNames)) (4 * i) 4)) =
      exports.map (·.nameRva) := by
  apply List.ext_getElem
  · simp [h.length]
  · intro i hi hi'
    rw [List.length_map] at hi'
    have hlt := h.length
    rw [List.getElem_map, List.getElem_map, List.getElem_range, wordAt_read _ (by omega), (h.name_rva i hi').2,
      UInt32.ofNat_toNat]

theorem Presents.names_mapped (h : Presents m mapped base ntRva directoryRva dir exports) :
    ∀ i < 4 * dir.numberOfNames, mapped (base.toNat + dir.addressOfNames.toNat + i) := by
  intro i hi
  have hentry := (h.name_rva (i / 4) (by rw [h.length]; omega)).1 (i % 4) (Nat.mod_lt _ (by decide))
  have hindex : base.toNat + dir.addressOfNames.toNat + 4 * (i / 4) + i % 4 =
      base.toNat + dir.addressOfNames.toNat + i := by omega
  rwa [hindex] at hentry

/-- On an image the whole function answers the function of the first name that matches. -/
theorem Presents.resolved (h : Presents m mapped base ntRva directoryRva dir exports) :
    resolveLdrLoadDllRva (imageReader m mapped) true base =
      (firstMatch mapped base.toNat exports).bind fun e => if e.function = 0 then none else some e.function := by
  rw [resolveLdrLoadDllRva, imageReader_whole rfl h.page, Option.bind_eq_bind, Option.bind_some,
    h.exportDirectoryRva, Option.bind_eq_bind, Option.bind_some,
    imageReader_whole (rva_toNat h.user _) h.directory_page, Option.bind_some, h.exportDirectory]
  by_cases hnone : dir.numberOfNames = 0
  · have hexports : exports = [] := List.length_eq_zero_iff.mp (h.length.trans hnone)
    rw [hexports, if_pos (Or.inl hnone)]
    rfl
  · have hfew := h.few
    rw [if_neg (by omega), if_neg (by decide), imageReader_whole (rva_toNat h.user _) h.names_mapped,
      Option.bind_some, h.nameRvas]
    apply walkNames_image h.user
    · rw [Nat.zero_add, h.length]
      exact hfew
    · intro k hk
      rw [Nat.zero_add]
      exact h.entry k hk

end

end

/-! ## Sorted tables -/

theorem not_lt_of_prefix {word name : List UInt8} (h : word <+: name) : ¬ name < word := by
  obtain ⟨rest, rfl⟩ := h
  exact List.le_append_left

/-- In a sorted table no other name in front of the driver's begins with it. -/
theorem firstMatch_of_sorted {base : ℕ} {exports : List Export}
    (hsorted : exports.Pairwise fun a b => a.name < b.name) {e : Export} (he : e ∈ exports)
    (hname : e.name = target) (hmapped : nameMapped mapped base e) : firstMatch mapped base exports = some e := by
  induction exports with
  | nil => exact absurd he List.not_mem_nil
  | cons x exports ih =>
    rw [List.pairwise_cons] at hsorted
    rw [firstMatch, List.find?_cons]
    rcases List.mem_cons.mp he with rfl | hmem
    · have hprefix : target.isPrefixOf e.name := by
        rw [hname]
        decide
      simp only [hmapped, hprefix, Bool.and_self]
    · have hlt := hsorted.1 e hmem
      have hno : target.isPrefixOf x.name = false := by
        rw [Bool.eq_false_iff, ne_eq, List.isPrefixOf_iff_prefix, ← hname]
        exact fun hprefix => not_lt_of_prefix hprefix hlt
      simp only [hno, Bool.and_false]
      exact ih hsorted.2 hmem

/-! ## Runs -/

/-- An image that exports `LdrLoadDll` at `function` from a sorted table, with the bytes the driver copies from
its name there. -/
structure NtdllImage (function : UInt32) where
  memory : Memory
  mapped : ℕ → Bool
  base : UInt64
  ntRva : ℕ
  directoryRva : UInt32
  dir : ExportDirectory
  exports : List Export
  presents : Presents memory mapped base ntRva directoryRva dir exports
  sorted : exports.Pairwise fun a b => a.name < b.name
  entry : Export
  entry_mem : entry ∈ exports
  name : entry.name = target
  name_mapped : nameMapped mapped base.toNat entry
  function_eq : entry.function = function
  function_ne : function ≠ 0

def NtdllImage.resolved {function : UInt32} (image : NtdllImage function) (allocated : Bool) : Option UInt32 :=
  resolveLdrLoadDllRva (imageReader image.memory image.mapped) allocated image.base

theorem resolved_of_unallocated (read : Reader) (base : UInt64) : resolveLdrLoadDllRva read false base = none := by
  simp [resolveLdrLoadDllRva]

theorem NtdllImage.resolved_eq {function : UInt32} (image : NtdllImage function) (allocated : Bool) :
    image.resolved allocated = if allocated then some function else none := by
  cases allocated with
  | false => exact resolved_of_unallocated _ _
  | true =>
    rw [NtdllImage.resolved, image.presents.resolved,
      firstMatch_of_sorted image.sorted image.entry_mem image.name image.name_mapped, Option.bind_some,
      image.function_eq, if_neg image.function_ne, if_pos rfl]

section
variable (upcase : UInt16 → UInt16)

/-- What an export walk answers in a step, it answers on such an image. -/
def Op.Walked (function : UInt32) : Op → Prop
  | .resolve name resolved => suffixMatches upcase name ntdllSuffix →
      ∃ (image : NtdllImage function) (allocated : Bool), resolved = image.resolved allocated
  | _ => True

theorem Op.Walked.rvas {function : UInt32} {op : Op} (h : op.Walked upcase function) :
    ∀ rva ∈ op.rvas upcase, rva = function := by
  intro rva hrva
  cases op with
  | resolve name resolved =>
    simp only [Op.rvas] at hrva
    split_ifs at hrva with hsuffix
    · obtain ⟨image, allocated, hresolved⟩ := h hsuffix
      rw [hresolved, image.resolved_eq] at hrva
      cases allocated with
      | false => exact absurd hrva List.not_mem_nil
      | true => exact List.mem_singleton.mp hrva
    · exact absurd hrva List.not_mem_nil
  | _ => exact absurd hrva List.not_mem_nil

/-- On every image the walk answers the function of the first export whose name can be copied and begins with
LdrLoadDll, wherever its headers and tables lie and whatever else they hold. So over every run of the engine in
which the images named ntdll.dll export LdrLoadDll at one address from sorted tables, every APC that was ever queued
jumps to that address behind the base it was given. -/
theorem apcs_aim_at_export :
    (∀ (m : Memory) (mapped : ℕ → Bool) (base : UInt64) (ntRva : ℕ) (directoryRva : UInt32) (dir : ExportDirectory)
      (exports : List Export), Presents m mapped base ntRva directoryRva dir exports →
      resolveLdrLoadDllRva (imageReader m mapped) true base =
        (firstMatch mapped base.toNat exports).bind fun e => if e.function = 0 then none else some e.function) ∧
    ∀ (policy : Policy) (ops : List Op) (function : UInt32), (∀ op ∈ ops, op.Walked upcase function) →
      ∀ apc ∈ (run (step upcase) (init policy) ops).apcs, apc.ldrLoadDll = apc.ntdllBase + function.toUInt64 := by
  constructor
  · intro m mapped base ntRva directoryRva dir exports h
    exact h.resolved
  · intro policy ops function hops apc hapc
    have hmem := ((init_sourced upcase policy ops).apcs apc hapc).1
    obtain ⟨op, hop, hrva⟩ := List.mem_flatMap.mp hmem
    rw [LoadApc.ldrLoadDll, (hops op hop).rvas upcase _ hrva]

end

/-! A small image: two names, of which the second begins with the first. -/

def smallExports : List Export :=
  [⟨target, 0x5000, 1, 0x5000⟩, ⟨target ++ [0x58], 0x5020, 0, 0x100⟩]

def smallMemory : Memory := Memory.zeroed.writeAll
  [⟨0x10000, [0x4D, 0x5A]⟩, ⟨0x1003C, [0x80]⟩, ⟨0x10080, [0x50, 0x45]⟩, ⟨0x10098, [0x0B, 0x02]⟩,
   ⟨0x10108, [0x00, 0x10, 0x00, 0x00, 0x28]⟩,
   ⟨0x11018, [0x02, 0x00, 0x00, 0x00, 0x00, 0x20, 0x00, 0x00, 0x00, 0x30, 0x00, 0x00, 0x00, 0x40]⟩,
   ⟨0x12000, [0x00, 0x01, 0x00, 0x00, 0x00, 0x50]⟩, ⟨0x13000, [0x00, 0x50, 0x00, 0x00, 0x20, 0x50]⟩,
   ⟨0x14000, [0x01, 0x00, 0x00, 0x00]⟩, ⟨0x15000, target⟩, ⟨0x15020, target ++ [0x58]⟩]

theorem smallImage_presents :
    Presents smallMemory (fun _ => true) 0x10000 0x80 0x1000 ⟨2, 0x2000, 0x3000, 0x4000⟩ smallExports := by
  have hword : ∀ {off size v : ℕ}, leValue (smallMemory.read off size) = v →
      HasWord smallMemory (fun _ => true) off size v := fun h => ⟨fun _ _ => rfl, h⟩
  constructor
  case user => decide
  case page => exact fun _ _ => rfl
  case dos => exact hword (by decide +kernel)
  case lfanew => exact hword (by decide +kernel)
  case nt_pos => decide
  case nt_inside => decide
  case nt => exact hword (by decide +kernel)
  case magic => exact hword (by decide +kernel)
  case directory => exact hword (by decide +kernel)
  case directory_ne => decide
  case size => decide +kernel
  case directory_page => exact fun _ _ => rfl
  case count => exact hword (by decide +kernel)
  case functions => exact hword (by decide +kernel)
  case names => exact hword (by decide +kernel)
  case ordinals => exact hword (by decide +kernel)
  case length => rfl
  case few => decide
  case name_rva =>
    intro i hi
    match i, hi with
    | 0, _ => exact hword (v := 0x5000) (by decide +kernel)
    | 1, _ => exact hword (v := 0x5020) (by decide +kernel)
  case entry =>
    intro i hi
    match i, hi with
    | 0, _ =>
      show HasEntry smallMemory (fun _ => true) 0x10000 ⟨2, 0x2000, 0x3000, 0x4000⟩ 0 ⟨target, 0x5000, 1, 0x5000⟩
      exact ⟨hword (by decide +kernel), hword (by decide +kernel), by decide +kernel⟩
    | 1, _ =>
      show HasEntry smallMemory (fun _ => true) 0x10000 ⟨2, 0x2000, 0x3000, 0x4000⟩ 1 ⟨target ++ [0x58], 0x5020, 0, 0x100⟩
      exact ⟨hword (by decide +kernel), hword (by decide +kernel), by decide +kernel⟩

def smallImage : NtdllImage 0x5000 where
  memory := smallMemory
  mapped _ := true
  base := 0x10000
  ntRva := 0x80
  directoryRva := 0x1000
  dir := ⟨2, 0x2000, 0x3000, 0x4000⟩
  exports := smallExports
  presents := smallImage_presents
  sorted := by decide
  entry := ⟨target, 0x5000, 1, 0x5000⟩
  entry_mem := by decide
  name := rfl
  name_mapped := by decide
  function_eq := rfl
  function_ne := by decide

/-- The walk over the small image, and the APC of a process that maps it. -/
theorem smallImage_aims :
    resolveLdrLoadDllRva (imageReader smallMemory fun _ => true) true 0x10000 = some 0x5000 ∧
      loadApc.ldrLoadDll = 0x7FF0 + 0x5000 := by
  have hbind : (firstMatch (fun _ => true) (0x10000 : UInt64).toNat smallExports).bind
      (fun e => if e.function = 0 then none else some e.function) = some 0x5000 := by decide
  have hwalk := (apcs_aim_at_export asciiUpcase).1 _ _ _ _ _ _ _ smallImage_presents
  refine ⟨hwalk.trans hbind, ?_⟩
  refine (apcs_aim_at_export asciiUpcase).2 everyProcess (startWith [(0x7FF0, wide "\\ntdll.dll")]) 0x5000 ?_
    loadApc (by decide)
  intro op hop
  simp only [startWith, List.flatMap_cons, List.flatMap_nil, List.append_nil, List.cons_append, List.nil_append,
    List.mem_cons, List.not_mem_nil, or_false] at hop
  rcases hop with rfl | rfl | rfl | rfl | rfl
  · trivial
  · exact fun _ => ⟨smallImage, true, (smallImage.resolved_eq true).symm⟩
  · trivial
  · trivial
  · trivial

end SecOutfall.Injection
