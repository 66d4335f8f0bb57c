import Mathlib.Tactic.Ring
import SecOutfall.Foundations.Bytes

/-! UTF-16. Decoding is lossy, as `String::from_utf16_lossy` does it: a surrogate that is not half
of a high-low pair becomes U+FFFD and costs one unit only. -/
namespace SecOutfall.Utf16
set_option autoImplicit false

def isHighSurrogate (u : UInt16) : Bool := 0xD800 ≤ u && u < 0xDC00

def isLowSurrogate (u : UInt16) : Bool := 0xDC00 ≤ u && u < 0xE000

def replacement : Char := '\uFFFD'

def pairChar (high low : UInt16) : Char :=
  Char.ofNat (0x10000 + (high.toNat - 0xD800) * 0x400 + (low.toNat - 0xDC00))

def unitChar (u : UInt16) : Char :=
  if isHighSurrogate u || isLowSurrogate u then replacement else Char.ofNat u.toNat

def decodeUtf16 : List UInt16 → List Char
  | [] => []
  | [u] => [unitChar u]
  | u :: v :: rest =>
    if isHighSurrogate u && isLowSurrogate v then pairChar u v :: decodeUtf16 rest
    else unitChar u :: decodeUtf16 (v :: rest)

def fromUtf16Lossy (units : List UInt16) : String := String.ofList (decodeUtf16 units)

/-- Consecutive byte pairs as little-endian units; an odd last byte is left out. -/
def unitsOf : List UInt8 → List UInt16
  | [] => []
  | [_] => []
  | lo :: hi :: rest => UInt16.ofNat (lo.toNat + 256 * hi.toNat) :: unitsOf rest

theorem unitsOf_length (bytes : List UInt8) : (unitsOf bytes).length = bytes.length / 2 := by
  induction bytes using unitsOf.induct with
  | case1 => rfl
  | case2 b => simp [unitsOf]
  | case3 lo hi rest ih =>
    rw [unitsOf, List.length_cons, ih, List.length_cons, List.length_cons]
    omega

theorem unitsOf_take (bytes : List UInt8) (n : ℕ) :
    unitsOf (bytes.take (2 * n)) = (unitsOf bytes).take n := by
  induction bytes using unitsOf.induct generalizing n with
  | case1 => simp [unitsOf]
  | case2 b =>
    cases n with
    | zero => rfl
    | succ n => simp [unitsOf, Nat.mul_succ]
  | case3 lo hi rest ih =>
    cases n with
    | zero => rfl
    | succ n =>
      have e : 2 * (n + 1) = 2 * n + 1 + 1 := by ring
      rw [e, List.take_succ_cons, List.take_succ_cons, unitsOf, unitsOf, List.take_succ_cons, ih]

/-! ## Encoding -/

def charUnits (c : Char) : List UInt16 :=
  if c.toNat < 0x10000 then [.ofNat c.toNat]
  else [.ofNat (0xD800 + (c.toNat - 0x10000) / 0x400), .ofNat (0xDC00 + (c.toNat - 0x10000) % 0x400)]

/-- `str::encode_utf16`. -/
def encodeUtf16 (text : String) : List UInt16 := text.toList.flatMap charUnits

/-- Little-endian bytes of the units. -/
def bytesOf (units : List UInt16) : List UInt8 := units.flatMap fun unit => Bytes.leBytes 2 unit.toNat

@[simp] theorem bytesOf_length (units : List UInt16) : (bytesOf units).length = 2 * units.length := by
  induction units with
  | nil => rfl
  | cons unit units ih =>
    rw [bytesOf, List.flatMap_cons, List.length_append, Bytes.leBytes_length]
    rw [bytesOf] at ih
    rw [ih, List.length_cons]
    ring

theorem unitsOf_bytesOf (units : List UInt16) : unitsOf (bytesOf units) = units := by
  induction units with
  | nil => rfl
  | cons unit units ih =>
    have hlt := unit.toNat_lt
    have hunit : UInt16.ofNat ((UInt8.ofNat unit.toNat).toNat + 256 * (UInt8.ofNat (unit.toNat / 256)).toNat) =
        unit := by
      apply UInt16.toNat_inj.mp
      rw [UInt8.toNat_ofNat', UInt8.toNat_ofNat', UInt16.toNat_ofNat']
      omega
    show UInt16.ofNat _ :: unitsOf (bytesOf units) = unit :: units
    rw [ih, hunit]

theorem charUnits_ne_nil (c : Char) : charUnits c ≠ [] := by
  unfold charUnits
  split <;> exact List.cons_ne_nil _ _

theorem encodeUtf16_ne_nil {text : String} (h : text ≠ "") : encodeUtf16 text ≠ [] := by
  intro hnil
  rw [encodeUtf16, List.flatMap_eq_nil_iff] at hnil
  cases hchars : text.toList with
  | nil => exact h (String.toList_inj.mp hchars)
  | cons c rest =>
    rw [hchars] at hnil
    exact charUnits_ne_nil c (hnil c List.mem_cons_self)

/-- Only U+0000 has a NUL unit. -/
theorem zero_not_mem_encodeUtf16 {text : String} (h : Char.ofNat 0 ∉ text.toList) :
    0 ∉ encodeUtf16 text := by
  intro hzero
  obtain ⟨c, hc, hunit⟩ := List.mem_flatMap.mp hzero
  have hne : c.toNat ≠ 0 := by
    intro h0
    apply h
    have hchar : c = Char.ofNat 0 := by rw [← h0, Char.ofNat_toNat]
    rwa [← hchar]
  have hbound : c.toNat < 0x110000 := by
    have hvalid := c.valid
    simp only [UInt32.isValidChar, Nat.isValidChar] at hvalid
    have hnat : c.toNat = c.val.toNat := rfl
    omega
  unfold charUnits at hunit
  split at hunit
  · have hnat := congrArg UInt16.toNat (List.mem_singleton.mp hunit)
    rw [UInt16.toNat_ofNat', UInt16.toNat_zero] at hnat
    omega
  · simp only [List.mem_cons, List.not_mem_nil, or_false] at hunit
    rcases hunit with hunit | hunit
    · have hnat := congrArg UInt16.toNat hunit
      rw [UInt16.toNat_ofNat', UInt16.toNat_zero] at hnat
      omega
    · have hnat := congrArg UInt16.toNat hunit
      rw [UInt16.toNat_ofNat', UInt16.toNat_zero] at hnat
      omega

/-- A lone high surrogate does not swallow the unit after it. -/
example : fromUtf16Lossy [0x61, 0xD83D, 0x62] = "a\uFFFDb" := by decide

theorem char_lt (c : Char) : c.toNat < 0xD800 ∨ 0xDFFF < c.toNat ∧ c.toNat < 0x110000 := by
  have hvalid := c.valid
  simp only [UInt32.isValidChar, Nat.isValidChar] at hvalid
  have hnat : c.toNat = c.val.toNat := rfl
  omega

/-- A character's units decode to it, whatever follows. -/
theorem decodeUtf16_charUnits (c : Char) (rest : List UInt16) :
    decodeUtf16 (charUnits c ++ rest) = c :: decodeUtf16 rest := by
  have hvalid := char_lt c
  unfold charUnits
  split
  · rename_i hsmall
    have hnat : (UInt16.ofNat c.toNat).toNat = c.toNat := by
      rw [UInt16.toNat_ofNat']
      omega
    have hhigh : isHighSurrogate (UInt16.ofNat c.toNat) = false := by
      simp only [isHighSurrogate, UInt16.le_iff_toNat_le, UInt16.lt_iff_toNat_lt, hnat, Bool.and_eq_false_iff,
        decide_eq_false_iff_not]
      have h1 : (0xD800 : UInt16).toNat = 0xD800 := rfl
      have h2 : (0xDC00 : UInt16).toNat = 0xDC00 := rfl
      omega
    have hlow : isLowSurrogate (UInt16.ofNat c.toNat) = false := by
      simp only [isLowSurrogate, UInt16.le_iff_toNat_le, UInt16.lt_iff_toNat_lt, hnat, Bool.and_eq_false_iff,
        decide_eq_false_iff_not]
      have h1 : (0xDC00 : UInt16).toNat = 0xDC00 := rfl
      have h2 : (0xE000 : UInt16).toNat = 0xE000 := rfl
      omega
    have hunit : unitChar (UInt16.ofNat c.toNat) = c := by
      rw [unitChar, hhigh, hlow, hnat]
      exact Char.ofNat_toNat c
    cases rest with
    | nil => exact congrArg (fun c => [c]) hunit
    | cons v rest =>
      rw [List.singleton_append, decodeUtf16, hhigh, hunit]
      rfl
  · rename_i hlarge
    have hfirst : (UInt16.ofNat (0xD800 + (c.toNat - 0x10000) / 0x400)).toNat =
        0xD800 + (c.toNat - 0x10000) / 0x400 := by
      rw [UInt16.toNat_ofNat']
      omega
    have hsecond : (UInt16.ofNat (0xDC00 + (c.toNat - 0x10000) % 0x400)).toNat =
        0xDC00 + (c.toNat - 0x10000) % 0x400 := by
      rw [UInt16.toNat_ofNat']
      omega
    have h1 : (0xD800 : UInt16).toNat = 0xD800 := rfl
    have h2 : (0xDC00 : UInt16).toNat = 0xDC00 := rfl
    have h3 : (0xE000 : UInt16).toNat = 0xE000 := rfl
    have hhigh : isHighSurrogate (UInt16.ofNat (0xD800 + (c.toNat - 0x10000) / 0x400)) = true := by
      simp only [isHighSurrogate, UInt16.le_iff_toNat_le, UInt16.lt_iff_toNat_lt, hfirst, Bool.and_eq_true,
        decide_eq_true_eq]
      omega
    have hlow : isLowSurrogate (UInt16.ofNat (0xDC00 + (c.toNat - 0x10000) % 0x400)) = true := by
      simp only [isLowSurrogate, UInt16.le_iff_toNat_le, UInt16.lt_iff_toNat_lt, hsecond, Bool.and_eq_true,
        decide_eq_true_eq]
      omega
    have hpair : pairChar (UInt16.ofNat (0xD800 + (c.toNat - 0x10000) / 0x400))
        (UInt16.ofNat (0xDC00 + (c.toNat - 0x10000) % 0x400)) = c := by
      rw [pairChar, hfirst, hsecond]
      have hback : 0x10000 + (0xD800 + (c.toNat - 0x10000) / 0x400 - 0xD800) * 0x400 +
          (0xDC00 + (c.toNat - 0x10000) % 0x400 - 0xDC00) = c.toNat := by omega
      rw [hback]
      exact Char.ofNat_toNat c
    show decodeUtf16 (_ :: _ :: rest) = _
    rw [decodeUtf16, hhigh, hlow, hpair]
    rfl

theorem decodeUtf16_encoded (chars : List Char) : decodeUtf16 (chars.flatMap charUnits) = chars := by
  induction chars with
  | nil => rfl
  | cons c chars ih => rw [List.flatMap_cons, decodeUtf16_charUnits, ih]

end SecOutfall.Utf16
