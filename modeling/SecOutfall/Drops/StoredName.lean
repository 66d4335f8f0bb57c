import Mathlib.Algebra.Ring.Nat
import SecOutfall.Control.FileWatch
import SecOutfall.Foundations.LastOccurrence

/-! The names under which drops are stored (`driver/secoutfall/secoutfall.cpp`).

The name is a counter's hex digits and what stands behind the last dot of the whole path, which may be a
dot in a directory's name. -/
namespace SecOutfall.Drops
open Control LastOccurrence
set_option autoImplicit false

/-! ## Model -/

def dot : UInt16 := 0x2E

def backslash : UInt16 := 0x5C

def hex : List UInt16 := wide "0123456789abcdef"

def shifts : List UInt64 := [28, 24, 20, 16, 12, 8, 4, 0]

/-- `context->Buffer[i++] = c` under its bound. -/
def pushUnit (buffer : List UInt16) (c : UInt16) : List UInt16 :=
  if buffer.length < 64 then buffer ++ [c] else buffer

/-- The last dot before position `k`. -/
def lastDot (path : List UInt16) : ℕ → Option ℕ
  | 0 => none
  | k + 1 => if path[k]? = some dot then some k else lastDot path k

/-- `GenerateStoredName`: the counter it leaves and the name. -/
def generateStoredName (dropCounter : UInt64) (path : List UInt16) : UInt64 × List UInt16 :=
  let dropCounter := dropCounter + 1
  let counter := dropCounter &&& 0xFFFFFFFF
  let buffer := (wide "drop-").foldl pushUnit []
  let buffer := shifts.foldl
    (fun buffer shift => pushUnit buffer (hex.getD ((counter >>> shift) &&& 0xF).toNat 0)) buffer
  let buffer :=
    match lastDot path path.length with
    | some position => (path.drop position).foldl pushUnit buffer
    | none => buffer
  (dropCounter, buffer)

def storedName (dropCounter : UInt64) (path : List UInt16) : List UInt16 := (generateStoredName dropCounter path).2

/-- The cleanup's copy of the name: so many bytes of it, into 64 units with a terminator. -/
def cleanupName (stored : List UInt16) : List UInt16 := stored.take (min (2 * stored.length) (2 * 64 - 2) / 2)

/-- The full path of the link or the copy, up to 1024 bytes. -/
def dropPath (directory stored : List UInt16) : Option (List UInt16) :=
  if directory = [] then none
  else if 512 < directory.length + 1 + stored.length then none
  else some (directory ++ backslash :: stored)

/-! ## Safe names -/

def finalComponent (path : List UInt16) : List UInt16 := behindLast backslash path

/-- With the dot. -/
def extension (component : List UInt16) : List UInt16 := fromLast dot component

structure SafeName (path stored : List UInt16) : Prop where
  bounded : stored.length ≤ 64
  component : backslash ∉ stored
  lands : ∀ directory full, dropPath directory stored = some full → finalComponent full = stored
  suffix : stored.drop 13 <+: extension (finalComponent path)

/-- The two names under which a capture may be stored, and those of a later one. -/
structure SafeCapture (dropCounter : UInt64) (path : List UInt16) : Prop where
  linked : SafeName path (storedName dropCounter path)
  copied : SafeName path (cleanupName (storedName dropCounter path))
  copyCut : (cleanupName (storedName dropCounter path)).length ≤ 63
  distinct : ∀ (later : UInt64) (path' : List UInt16), 0 < later.toNat → later.toNat < 2 ^ 32 →
    ∀ stored ∈ [storedName dropCounter path, cleanupName (storedName dropCounter path)],
    ∀ stored' ∈ [storedName (dropCounter + later) path', cleanupName (storedName (dropCounter + later) path')],
      stored ≠ stored'

/-! ## The name -/

/-- The part of the path that the scan selects. -/
def dotSuffix (path : List UInt16) (k : ℕ) : List UInt16 :=
  match lastDot path k with
  | some position => (path.take k).drop position
  | none => []

theorem lastDot_lt {path : List UInt16} {k position : ℕ} (h : lastDot path k = some position) : position < k := by
  induction k with
  | zero => cases h
  | succ k ih =>
    rw [lastDot] at h
    split at h
    · cases h
      exact Nat.lt_succ_self _
    · exact Nat.lt_succ_of_lt (ih h)

theorem dotSuffix_eq (path : List UInt16) {k : ℕ} (hk : k ≤ path.length) :
    dotSuffix path k = fromLast dot (path.take k) := by
  induction k with
  | zero => rfl
  | succ k ih =>
    have hlt : k < path.length := hk
    have hat : path[k]? = some path[k] := List.getElem?_eq_getElem hlt
    have htake : path.take (k + 1) = path.take k ++ [path[k]] := by
      rw [List.take_add_one, hat, Option.toList_some]
    have ih := ih (Nat.le_of_lt hlt)
    rw [dotSuffix, htake, fromLast_concat]
    by_cases hdot : path[k] = dot
    · have hscan : lastDot path (k + 1) = some k := by rw [lastDot, if_pos (hat.trans (congrArg some hdot))]
      have hlength : (path.take k).length = k := List.length_take_of_le (Nat.le_of_lt hlt)
      rw [hscan, if_pos hdot]
      simp only
      rw [List.drop_left' hlength, hdot]
    · have hscan : lastDot path (k + 1) = lastDot path k := by
        rw [lastDot, if_neg fun h => hdot (Option.some.inj (hat.symm.trans h))]
      rw [hscan, if_neg hdot]
      rw [dotSuffix] at ih
      cases hrest : lastDot path k with
      | none =>
        rw [hrest] at ih
        rw [if_neg (fromLast_eq_nil.mp ih.symm)]
      | some position =>
        have hposition := lastDot_lt hrest
        have hlength : position < (path.take k).length := by
          rw [List.length_take]
          omega
        rw [hrest] at ih
        simp only at ih ⊢
        have hmem : dot ∈ path.take k := by
          by_contra hnone
          rw [fromLast_eq_nil.mpr hnone, List.drop_eq_nil_iff] at ih
          omega
        rw [if_pos hmem, List.drop_append_of_le_length (Nat.le_of_lt hlength), ih]

theorem foldl_pushUnit (units : List UInt16) {buffer : List UInt16} (h : buffer.length ≤ 64) :
    units.foldl pushUnit buffer = buffer ++ units.take (64 - buffer.length) := by
  induction units generalizing buffer with
  | nil => simp
  | cons unit units ih =>
    rw [List.foldl_cons, pushUnit]
    by_cases hroom : buffer.length < 64
    · have hlength : (buffer ++ [unit]).length ≤ 64 := by
        rw [List.length_append, List.length_singleton]
        exact hroom
      obtain ⟨room, hroom'⟩ : ∃ room, 64 - buffer.length = room + 1 := ⟨63 - buffer.length, by omega⟩
      have hless : 64 - (buffer ++ [unit]).length = room := by
        rw [List.length_append, List.length_singleton]
        omega
      rw [if_pos hroom, ih hlength, hless, hroom', List.take_succ_cons, List.append_assoc, List.singleton_append]
    · have hfull : 64 - buffer.length = 0 := by omega
      rw [if_neg hroom, ih h, hfull, List.take_zero, List.take_zero]

def counterDigit (counter : UInt64) (shift : UInt64) : UInt16 := hex.getD ((counter >>> shift) &&& 0xF).toNat 0

/-- What every name begins with. -/
def stem (dropCounter : UInt64) : List UInt16 :=
  wide "drop-" ++ shifts.map (counterDigit ((dropCounter + 1) &&& 0xFFFFFFFF))

theorem dropWord_length : (wide "drop-").length = 5 := by decide

@[simp] theorem stem_length (dropCounter : UInt64) : (stem dropCounter).length = 13 := by
  rw [stem, List.length_append, List.length_map, dropWord_length]
  rfl

theorem foldl_stem (dropCounter : UInt64) :
    shifts.foldl (fun buffer shift =>
      pushUnit buffer (hex.getD ((((dropCounter + 1) &&& 0xFFFFFFFF) >>> shift) &&& 0xF).toNat 0))
      ((wide "drop-").foldl pushUnit []) = stem dropCounter := by
  have hempty : ([] : List UInt16).length ≤ 64 := Nat.zero_le 64
  have hword : (wide "drop-").foldl pushUnit [] = wide "drop-" := by
    rw [foldl_pushUnit _ hempty, List.nil_append, List.take_of_length_le (by rw [dropWord_length]; decide)]
  have hdigits := foldl_pushUnit (shifts.map (counterDigit ((dropCounter + 1) &&& 0xFFFFFFFF)))
    (show (wide "drop-").length ≤ 64 by rw [dropWord_length]; decide)
  rw [List.foldl_map, dropWord_length, List.take_of_length_le (by rw [List.length_map]; decide)] at hdigits
  rw [hword]
  exact hdigits

theorem storedName_eq (dropCounter : UInt64) (path : List UInt16) :
    storedName dropCounter path = stem dropCounter ++ (fromLast dot path).take 51 := by
  have hsuffix := dotSuffix_eq path (Nat.le_refl path.length)
  rw [dotSuffix, List.take_length] at hsuffix
  unfold storedName generateStoredName
  simp only [foldl_stem]
  cases hscan : lastDot path path.length with
  | none =>
    rw [hscan] at hsuffix
    rw [← hsuffix, List.take_nil, List.append_nil]
  | some position =>
    rw [hscan] at hsuffix
    simp only at hsuffix ⊢
    rw [foldl_pushUnit _ (by rw [stem_length]; decide), hsuffix, stem_length]

/-! ## Distinct names -/

theorem hex_getD_inj {m n : ℕ} (hm : m < 16) (hn : n < 16) (h : hex.getD m 0 = hex.getD n 0) : m = n := by
  have hall : ∀ m < 16, ∀ n < 16, hex.getD m 0 = hex.getD n 0 → m = n := by decide
  exact hall m hm n hn h

theorem digit_toNat (counter shift : UInt64) :
    ((counter >>> shift) &&& 0xF).toNat = counter.toNat / 2 ^ (shift.toNat % 64) % 16 := by
  rw [UInt64.toNat_and, UInt64.toNat_shiftRight, Nat.shiftRight_eq_div_pow]
  exact Nat.and_two_pow_sub_one_eq_mod _ 4

theorem low_toNat (counter : UInt64) : (counter &&& 0xFFFFFFFF).toNat = counter.toNat % 2 ^ 32 := by
  rw [UInt64.toNat_and]
  exact Nat.and_two_pow_sub_one_eq_mod _ 32

theorem counterDigit_inj {counter counter' shift : UInt64}
    (h : counterDigit counter shift = counterDigit counter' shift) :
    counter.toNat / 2 ^ (shift.toNat % 64) % 16 = counter'.toNat / 2 ^ (shift.toNat % 64) % 16 := by
  rw [← digit_toNat, ← digit_toNat]
  refine hex_getD_inj ?_ ?_ h
  · rw [digit_toNat]
    exact Nat.mod_lt _ (by decide)
  · rw [digit_toNat]
    exact Nat.mod_lt _ (by decide)

/-- The eight digits give the low word of the counter. -/
theorem stem_inj {dropCounter dropCounter' : UInt64} (h : stem dropCounter = stem dropCounter') :
    (dropCounter + 1).toNat % 2 ^ 32 = (dropCounter' + 1).toNat % 2 ^ 32 := by
  have hmap := List.append_cancel_left h
  have hdigit : ∀ shift ∈ shifts, _ := fun shift hshift => counterDigit_inj (List.map_inj_left.mp hmap shift hshift)
  rw [← low_toNat, ← low_toNat]
  have hlow := low_toNat (dropCounter + 1)
  have hlow' := low_toNat (dropCounter' + 1)
  generalize ((dropCounter + 1) &&& 0xFFFFFFFF).toNat = low at hdigit hlow ⊢
  generalize ((dropCounter' + 1) &&& 0xFFFFFFFF).toNat = low' at hdigit hlow' ⊢
  have h28 := hdigit 28 (by decide)
  have h24 := hdigit 24 (by decide)
  have h20 := hdigit 20 (by decide)
  have h16 := hdigit 16 (by decide)
  have h12 := hdigit 12 (by decide)
  have h8 := hdigit 8 (by decide)
  have h4 := hdigit 4 (by decide)
  have h0 := hdigit 0 (by decide)
  simp at h28 h24 h20 h16 h12 h8 h4 h0
  omega

/-! ## Safety -/

theorem cleanupName_eq (stored : List UInt16) : cleanupName stored = stored.take 63 := by
  have hcount : min (2 * stored.length) (2 * 64 - 2) / 2 = min 63 stored.length := by omega
  rw [cleanupName, hcount, ← List.take_take, List.take_length]

theorem cleanupName_storedName (dropCounter : UInt64) (path : List UInt16) :
    cleanupName (storedName dropCounter path) = stem dropCounter ++ (fromLast dot path).take 50 := by
  rw [cleanupName_eq, storedName_eq, List.take_append, stem_length, List.take_take,
    List.take_of_length_le (by rw [stem_length]; decide)]
  rfl

theorem take_stem {dropCounter : UInt64} {path stored : List UInt16}
    (h : stored ∈ [storedName dropCounter path, cleanupName (storedName dropCounter path)]) :
    stored.take 13 = stem dropCounter := by
  obtain rfl | h := List.mem_cons.mp h
  · rw [storedName_eq, List.take_left' (stem_length dropCounter)]
  · rw [List.mem_singleton.mp h, cleanupName_storedName, List.take_left' (stem_length dropCounter)]

theorem backslash_not_mem_stem (dropCounter : UInt64) : backslash ∉ stem dropCounter := by
  intro h
  obtain hword | hdigits := List.mem_append.mp h
  · exact absurd hword (by decide)
  · obtain ⟨shift, -, hdigit⟩ := List.mem_map.mp hdigits
    have hall : ∀ n < 16, hex.getD n 0 ≠ backslash := by decide
    refine hall _ ?_ hdigit
    rw [digit_toNat]
    exact Nat.mod_lt _ (by decide)

/-- A path whose directories alone have dots is the exception. -/
theorem extension_finalComponent {path : List UInt16} (h : dot ∈ path → dot ∈ finalComponent path) :
    extension (finalComponent path) = fromLast dot path := by
  by_cases hmem : dot ∈ path
  · exact (fromLast_of_suffix (behindLast_suffix backslash path) (h hmem)).symm
  · have hnone : dot ∉ finalComponent path := fun hin => hmem ((behindLast_suffix backslash path).mem hin)
    rw [extension, fromLast_eq_nil.mpr hnone, fromLast_eq_nil.mpr hmem]

theorem backslash_not_mem_extension (path : List UInt16) : backslash ∉ extension (finalComponent path) := fun h =>
  not_mem_behindLast backslash path ((fromLast_suffix dot _).mem h)

theorem dropPath_lands {directory stored full : List UInt16} (hstored : backslash ∉ stored)
    (h : dropPath directory stored = some full) : finalComponent full = stored := by
  unfold dropPath at h
  split at h
  · cases h
  · split at h
    · cases h
    · cases h
      exact behindLast_append_cons hstored

theorem safeName {path : List UInt16} (h : dot ∈ path → dot ∈ finalComponent path) (dropCounter : UInt64) {n : ℕ}
    (hn : n ≤ 51) : SafeName path (stem dropCounter ++ (fromLast dot path).take n) := by
  rw [← extension_finalComponent h]
  have hcomponent : backslash ∉ stem dropCounter ++ (extension (finalComponent path)).take n := by
    rw [List.mem_append]
    rintro (hstem | hsuffix)
    · exact backslash_not_mem_stem dropCounter hstem
    · exact backslash_not_mem_extension path (List.mem_of_mem_take hsuffix)
  refine ⟨?_, hcomponent, fun _ _ hfull => dropPath_lands hcomponent hfull, ?_⟩
  · rw [List.length_append, stem_length, List.length_take]
    omega
  · rw [List.drop_left' (stem_length dropCounter)]
    exact List.take_prefix n _

/-- Whatever the paths: fewer than 2^32 captures later the digits are others. -/
theorem storedNames_distinct (dropCounter later : UInt64) (path path' : List UInt16) (hpos : 0 < later.toNat)
    (hlt : later.toNat < 2 ^ 32) {stored stored' : List UInt16}
    (hstored : stored ∈ [storedName dropCounter path, cleanupName (storedName dropCounter path)])
    (hstored' : stored' ∈ [storedName (dropCounter + later) path',
      cleanupName (storedName (dropCounter + later) path')]) : stored ≠ stored' := by
  rintro rfl
  have hstem := stem_inj ((take_stem hstored).symm.trans (take_stem hstored'))
  simp only [UInt64.toNat_add] at hstem
  have hone : (1 : UInt64).toNat = 1 := rfl
  omega

/-- A capture's names are safe exactly if the last dot of its path, if any, is behind the last separator. -/
theorem safeCapture_iff (dropCounter : UInt64) (path : List UInt16) :
    SafeCapture dropCounter path ↔ (dot ∈ path → dot ∈ finalComponent path) := by
  constructor
  · intro h hmem
    by_contra hnone
    have hsuffix := h.linked.suffix
    rw [storedName_eq, List.drop_left' (stem_length dropCounter), extension, fromLast_eq_nil.mpr hnone,
      List.prefix_nil, fromLast, if_pos hmem, List.take_succ_cons] at hsuffix
    cases hsuffix
  · intro h
    refine ⟨?_, ?_, ?_, fun later path' hpos hlt _ hstored _ hstored' =>
      storedNames_distinct dropCounter later path path' hpos hlt hstored hstored'⟩
    · rw [storedName_eq]
      exact safeName h dropCounter (Nat.le_refl 51)
    · rw [cleanupName_storedName]
      exact safeName h dropCounter (Nat.le_succ 50)
    · rw [cleanupName_eq]
      exact List.length_take_le 63 _

/-- A file without an extension, in a directory with one. -/
theorem dottedDirectory_unsafe :
    ¬ SafeCapture 0 (wide "\\Device\\HarddiskVolume2\\dir.x\\file") := fun h =>
  h.linked.component (by decide +kernel)

end SecOutfall.Drops
