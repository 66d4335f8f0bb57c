import SecOutfall.Control.Policies

/-! The agent's policy encoders (`crates/agent/src/ports/driven/driver_control.rs`) against the
handlers that read them. -/
namespace SecOutfall.Control
open CLayout Bytes Utf16 Wire Protection
set_option autoImplicit false

/-! ## Encoders -/

def wideNul (value : String) : List UInt8 := bytesOf (encodeUtf16 value) ++ leBytes 2 0

/-- Every entry has its NUL, and a list that is not empty has one more. -/
def wideList (values : List String) : List UInt8 :=
  values.flatMap wideNul ++ if values.isEmpty then [] else leBytes 2 0

/-- `u32::try_from(n).unwrap_or(u32::MAX)`, little-endian. -/
def u32Le (n : ℕ) : List UInt8 := leBytes 4 (if n < 2 ^ 32 then n else 2 ^ 32 - 1)

def policyFlag (enabled : Bool) : List UInt8 := [if enabled then 1 else 0, 0, 0, 0]

def encodeFileWatchPolicy (enabled : Bool) (extensions : List String) : List UInt8 :=
  let list := wideList extensions
  policyFlag enabled ++ u32Le extensions.length ++ u32Le list.length ++ list

def encodeDropPolicy (extensions : List String) (dir : String) : List UInt8 :=
  let list := wideList extensions
  let dir := wideNul dir
  policyFlag true ++ u32Le extensions.length ++ u32Le list.length ++ u32Le dir.length ++ list ++ dir

def encodeProtectionPolicy (names : List String) : List UInt8 :=
  let list := wideList names
  policyFlag (!names.isEmpty) ++ u32Le list.length ++ list

/-! ## Names -/

def IsText (text : String) : Prop := text ≠ "" ∧ Char.ofNat 0 ∉ text.toList

instance (text : String) : Decidable (IsText text) := inferInstanceAs (Decidable (_ ∧ _))

theorem IsText.isName {text : String} (h : IsText text) : NulList.IsName 0 (encodeUtf16 text) :=
  ⟨encodeUtf16_ne_nil h.1, zero_not_mem_encodeUtf16 h.2⟩

/-- A list that fits into a policy. -/
structure Pushable (names : List String) : Prop where
  nonempty : names ≠ []
  count : names.length ≤ 64
  texts : ∀ name ∈ names, IsText name
  fits : (wideList names).length ≤ 4096

structure PushableDir (dir : String) : Prop where
  text : IsText dir
  fits : (wideNul dir).length ≤ 1024

theorem wideNul_eq (value : String) : wideNul value = bytesOf (encodeUtf16 value ++ [0]) := by
  rw [wideNul, bytesOf, bytesOf, List.flatMap_append]
  rfl

theorem flatMap_wideNul (values : List String) :
    values.flatMap wideNul = bytesOf (NulList.joined 0 (values.map encodeUtf16)) := by
  induction values with
  | nil => rfl
  | cons value values ih =>
    rw [List.flatMap_cons, ih, wideNul_eq, List.map_cons, NulList.joined_cons, bytesOf, bytesOf, bytesOf,
      ← List.flatMap_append, List.append_assoc, List.singleton_append]

theorem wideList_eq {values : List String} (h : values ≠ []) :
    wideList values = bytesOf (NulList.joined 0 (values.map encodeUtf16) ++ [0]) := by
  have hempty : values.isEmpty = false := by simpa using h
  rw [wideList, hempty, flatMap_wideNul, bytesOf, bytesOf, List.flatMap_append]
  rfl

theorem isName_of_pushable {names : List String} (h : Pushable names) :
    ∀ name ∈ names.map encodeUtf16, NulList.IsName 0 name := by
  intro name hname
  obtain ⟨text, htext, rfl⟩ := List.mem_map.mp hname
  exact (h.texts text htext).isName

/-! ## Reading the fields back -/

theorem slice_append {before field after : List UInt8} {off n : ℕ} (hoff : before.length = off)
    (hn : field.length = n) : slice (before ++ field ++ after) off n = field := by
  rw [slice, List.append_assoc, ← hoff, List.drop_left, ← hn, List.take_left]

theorem readUlong_append {before after : List UInt8} {off n : ℕ} (hoff : before.length = off)
    (hn : n < 2 ^ 32) : readUlong (before ++ u32Le n ++ after) off = n := by
  rw [readUlong, slice_append hoff (by rw [u32Le, leBytes_length]), u32Le, leValue_leBytes, if_pos hn]
  exact Nat.mod_eq_of_lt hn

theorem readWide_append {before after : List UInt8} {units : List UInt16} {off n : ℕ}
    (hoff : before.length = off) (hn : 2 * units.length = n) :
    readWide (before ++ bytesOf units ++ after) off n = units := by
  rw [readWide, slice_append hoff (by rw [bytesOf_length, hn]), unitsOf_bytesOf]

@[simp] theorem policyFlag_length (enabled : Bool) : (policyFlag enabled).length = 4 := rfl

@[simp] theorem u32Le_length (n : ℕ) : (u32Le n).length = 4 := leBytes_length 4 _

theorem readUchar_policyFlag (enabled : Bool) (after : List UInt8) :
    readUchar (policyFlag enabled ++ after) 0 = if enabled then 1 else 0 := by
  cases enabled <;> rfl

theorem pushable_count {names : List String} (h : Pushable names) :
    names.length < 2 ^ 32 ∧ names.length ≠ 0 := by
  have hcount := h.count
  have hne : names.length ≠ 0 := fun h0 => h.nonempty (List.length_eq_zero_iff.mp h0)
  omega

theorem pushable_bytes {names : List String} (h : Pushable names) :
    (wideList names).length < 2 ^ 32 ∧ (wideList names).length % 2 = 0 := by
  have hfits := h.fits
  have heven : (wideList names).length % 2 = 0 := by
    rw [wideList_eq h.nonempty, bytesOf_length]
    omega
  omega

theorem applyTarget_units {units : List UInt16} (hne : units ≠ []) (hfits : 2 * units.length ≤ 1024) :
    applyTarget units true = some units := by
  have hkept : units.take (min (2 * units.length) maxDirBytes / 2) = units := by
    apply List.take_of_length_le
    rw [maxDirBytes]
    omega
  simp only [applyTarget, hkept, if_neg hne, if_true]

/-! ## Round trips -/

section
variable {names : List String} (h : Pushable names)
include h

theorem readWide_wideList (before after : List UInt8) {off : ℕ} (hoff : before.length = off) :
    readWide (before ++ wideList names ++ after) off (wideList names).length =
      NulList.joined 0 (names.map encodeUtf16) ++ [0] := by
  rw [wideList_eq h.nonempty]
  exact readWide_append hoff (bytesOf_length _).symm

theorem readWide_list_end (before : List UInt8) {off : ℕ} (hoff : before.length = off) :
    readWide (before ++ wideList names) off (wideList names).length =
      NulList.joined 0 (names.map encodeUtf16) ++ [0] := by
  have hlist := readWide_wideList h before [] hoff
  rwa [List.append_nil] at hlist

variable {alloc : ℕ → Bool} (s : Policies) (hmemory : ∀ n, alloc n = true)
include hmemory

theorem take_pushable : NulList.take 0 (fun i => alloc (2 + i)) names.length
    (NulList.joined 0 (names.map encodeUtf16) ++ [0]) = some (names.map encodeUtf16) := by
  have hjoined := NulList.take_joined 0 (fun i => hmemory (2 + i)) (isName_of_pushable h) [0]
  rwa [List.length_map] at hjoined

theorem protectionSetPolicy_pushable : protectionSetPolicy true
    (ushortString (NulList.joined 0 (names.map encodeUtf16) ++ [0])) alloc =
      some (names.map encodeUtf16) := by
  obtain ⟨-, hne⟩ := pushable_count h
  have hcap := h.count
  have hfits := h.fits
  rw [wideList_eq h.nonempty, bytesOf_length] at hfits
  have hnames : NulList.names 0 (NulList.joined 0 (names.map encodeUtf16) ++ [0]) =
      names.map encodeUtf16 := by
    rw [NulList.names_joined 0 (isName_of_pushable h)]
    exact List.append_nil _
  have hkept := NulList.keep_all (fun i => hmemory (2 + i)) (names.map encodeUtf16)
  have hallocated : (alloc 0 && alloc 1) = true := by rw [hmemory, hmemory]; rfl
  rw [ushortString_of_lt (by omega), protectionSetPolicy]
  simp only [hnames, hkept, hallocated, List.length_map, ProtectedNames.maxNames,
    ProtectedNames.maxBlobBytes]
  rw [if_neg (by decide), if_neg (by omega), if_neg (by decide), if_neg (by simp)]

theorem setFileWatch_encoded : setFileWatch s (encodeFileWatchPolicy true names) alloc =
    (.success, { s with watch := ⟨true, names.map encodeUtf16⟩ }) := by
  obtain ⟨hcount, hne⟩ := pushable_count h
  obtain ⟨hbytes, heven⟩ := pushable_bytes h
  have hfits := h.fits
  have hcap := h.count
  have hallocated : (alloc 0 && alloc 1) = true := by rw [hmemory, hmemory]; rfl
  set input := encodeFileWatchPolicy true names with hinput
  have hlength : input.length = 12 + (wideList names).length := by
    simp only [hinput, encodeFileWatchPolicy, List.length_append, policyFlag_length, u32Le_length]
  have henabled : readUchar input 0 = 1 := by
    rw [hinput, encodeFileWatchPolicy, List.append_assoc, List.append_assoc]
    exact readUchar_policyFlag true _
  have hcountAt : readUlong input 4 = names.length := by
    rw [hinput, encodeFileWatchPolicy, List.append_assoc]
    exact readUlong_append rfl hcount
  have hbytesAt : readUlong input 8 = (wideList names).length := by
    rw [hinput, encodeFileWatchPolicy]
    exact readUlong_append (by simp) hbytes
  have hlist : readWide input 12 (wideList names).length = _ :=
    readWide_list_end h (policyFlag true ++ u32Le names.length ++ u32Le (wideList names).length) (by simp)
  unfold setFileWatch
  simp only [FileWatchPolicy.sizeof_eq, FileWatchPolicy.enabled_off, FileWatchPolicy.extensionsCount_off,
    FileWatchPolicy.extensionsBytes_off, henabled, hcountAt, hbytesAt, hallocated, maxBlobBytes,
    maxExtensions]
  rw [if_neg (by omega), if_neg (by omega), if_neg (by omega), if_neg (by decide), hlist,
    take_pushable h hmemory]

theorem setDropPolicy_encoded {dir : String} (hdir : PushableDir dir) :
    setDropPolicy s (encodeDropPolicy names dir) alloc =
      (.success, { s with
        dropWatch := ⟨true, names.map encodeUtf16⟩
        target := some (encodeUtf16 dir) }) := by
  obtain ⟨hcount, -⟩ := pushable_count h
  obtain ⟨hbytes, heven⟩ := pushable_bytes h
  have hfits := h.fits
  have hcap := h.count
  have hdirfits := hdir.fits
  have hdirlength : (wideNul dir).length = 2 * (encodeUtf16 dir).length + 2 := by
    rw [wideNul_eq, bytesOf_length, List.length_append]
    rfl
  have hdirbytes : (wideNul dir).length < 2 ^ 32 := by omega
  have hallocated : (alloc 0 && alloc 1) = true := by rw [hmemory, hmemory]; rfl
  set input := encodeDropPolicy names dir with hinput
  have hlength : input.length = 16 + (wideList names).length + (wideNul dir).length := by
    simp only [hinput, encodeDropPolicy, List.length_append, policyFlag_length, u32Le_length]
  have henabled : readUchar input 0 = 1 := by
    rw [hinput, encodeDropPolicy]
    simp only [List.append_assoc]
    exact readUchar_policyFlag true _
  have hcountAt : readUlong input 4 = names.length := by
    rw [hinput, encodeDropPolicy, List.append_assoc, List.append_assoc, List.append_assoc]
    exact readUlong_append rfl hcount
  have hbytesAt : readUlong input 8 = (wideList names).length := by
    rw [hinput, encodeDropPolicy, List.append_assoc, List.append_assoc]
    exact readUlong_append (by simp) hbytes
  have hdirAt : readUlong input 12 = (wideNul dir).length := by
    rw [hinput, encodeDropPolicy, List.append_assoc]
    exact readUlong_append (by simp) hdirbytes
  have hlist : readWide input 16 (wideList names).length = _ :=
    readWide_wideList h (policyFlag true ++ u32Le names.length ++ u32Le (wideList names).length ++
      u32Le (wideNul dir).length) (wideNul dir) (by simp)
  have hdirlist : readWide input (16 + (wideList names).length) (wideNul dir).length =
      encodeUtf16 dir ++ [0] := by
    rw [hinput, encodeDropPolicy, wideNul_eq dir, ← List.append_nil (_ ++ bytesOf _)]
    exact readWide_append (by simp; omega) (bytesOf_length _).symm
  have hdirname : readWide input (16 + (wideList names).length) ((wideNul dir).length - 2) =
      encodeUtf16 dir := by
    rw [hinput, encodeDropPolicy, wideNul, ← List.append_assoc]
    exact readWide_append (by simp; omega) (by simp)
  unfold setDropPolicy
  simp only [DropPolicy.sizeof_eq, DropPolicy.enabled_off, DropPolicy.extensionsCount_off,
    DropPolicy.extensionsBytes_off, DropPolicy.dirBytes_off, henabled, hcountAt, hbytesAt, hdirAt, hallocated,
    maxBlobBytes, maxExtensions, maxDirBytes]
  rw [if_neg (by omega), if_neg (by omega), if_neg (by decide), hdirlist,
    if_neg (by rw [List.getLast?_concat]; exact not_not.mpr rfl), if_neg (by decide), hlist,
    take_pushable h hmemory, hdirname, hmemory]
  simp only
  rw [applyTarget_units (encodeUtf16_ne_nil hdir.text.1) (by omega)]

theorem setProtected_encoded : setProtected s (encodeProtectionPolicy names) alloc =
    (.success, { s with protectedNames := names.map encodeUtf16 }) := by
  obtain ⟨hcount, hne⟩ := pushable_count h
  obtain ⟨hbytes, heven⟩ := pushable_bytes h
  have hfits := h.fits
  have hcap := h.count
  have hflag : (!names.isEmpty) = true := by simpa using h.nonempty
  set input := encodeProtectionPolicy names with hinput
  have hlength : input.length = 8 + (wideList names).length := by
    simp only [hinput, encodeProtectionPolicy, List.length_append, policyFlag_length, u32Le_length]
  have henabled : readUchar input 0 = 1 := by
    rw [hinput, encodeProtectionPolicy, List.append_assoc, hflag]
    exact readUchar_policyFlag true _
  have hbytesAt : readUlong input 4 = (wideList names).length := by
    rw [hinput, encodeProtectionPolicy]
    exact readUlong_append rfl hbytes
  have hlist : readWide input 8 (wideList names).length = _ :=
    readWide_list_end h (policyFlag (!names.isEmpty) ++ u32Le (wideList names).length) (by simp)
  have hpolicy : protectionSetPolicy true
      (ushortString (NulList.joined 0 (names.map encodeUtf16) ++ [0])) alloc =
        some (names.map encodeUtf16) := protectionSetPolicy_pushable h hmemory
  unfold setProtected
  simp only [ProtectionPolicy.sizeof_eq, ProtectionPolicy.enabled_off, ProtectionPolicy.namesBytes_off,
    henabled, hbytesAt, hlist]
  rw [if_neg (by omega), if_neg (by omega)]
  simp [hpolicy]

end

/-- What the agent encodes the driver installs, and what the driver rejects changes nothing. -/
theorem policies_installed_or_unchanged (s : Policies) (alloc : ℕ → Bool) :
    ((∀ n, alloc n = true) → ∀ names, Pushable names →
      setFileWatch s (encodeFileWatchPolicy true names) alloc =
          (.success, { s with watch := ⟨true, names.map encodeUtf16⟩ }) ∧
        setProtected s (encodeProtectionPolicy names) alloc =
          (.success, { s with protectedNames := names.map encodeUtf16 }) ∧
        ∀ dir, PushableDir dir → setDropPolicy s (encodeDropPolicy names dir) alloc =
          (.success, { s with
            dropWatch := ⟨true, names.map encodeUtf16⟩
            target := some (encodeUtf16 dir) })) ∧
      ∀ input,
        ((setFileWatch s input alloc).1 ≠ .success → (setFileWatch s input alloc).2 = s) ∧
        ((setDropPolicy s input alloc).1 ≠ .success → (setDropPolicy s input alloc).2 = s) ∧
        ((setProtected s input alloc).1 ≠ .success → (setProtected s input alloc).2 = s) := by
  refine ⟨?_, ?_⟩
  · intro hmemory names h
    refine ⟨setFileWatch_encoded h s hmemory, setProtected_encoded h s hmemory, ?_⟩
    intro dir hdir
    exact setDropPolicy_encoded h s hmemory hdir
  · intro input
    exact ⟨setFileWatch_rejected s input alloc, setDropPolicy_rejected s input alloc,
      setProtected_rejected s input alloc⟩

/-- Two extensions and a directory. -/
theorem two_extensions_installed :
    setDropPolicy noPolicies (encodeDropPolicy [".exe", ".dll"] "D:\\drops") (fun _ => true) =
      (.success, { noPolicies with
        dropWatch := ⟨true, [encodeUtf16 ".exe", encodeUtf16 ".dll"]⟩
        target := some (encodeUtf16 "D:\\drops") }) := by
  have hnames : Pushable [".exe", ".dll"] := ⟨by decide, by decide, by decide, by decide⟩
  have hdir : PushableDir "D:\\drops" := ⟨by decide, by decide⟩
  exact ((policies_installed_or_unchanged noPolicies fun _ => true).1 (fun _ => rfl) _ hnames).2.2 _ hdir

end SecOutfall.Control
