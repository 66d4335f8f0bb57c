import SecOutfall.Control.Requests
import SecOutfall.Protection.Names

/-! The handlers of the name policies: SET_FILE_WATCH, SET_DROP_POLICY and SET_PROTECTED
(`driver/secoutfall/secoutfall.cpp`). -/
namespace SecOutfall.Control
open CLayout Bytes Wire Protection
set_option autoImplicit false

/-- What the three handlers install. -/
structure Policies where
  watch : FileWatch
  dropWatch : FileWatch
  target : Option (List UInt16)
  protectedNames : List (List UInt16)
  deriving DecidableEq, Repr

def noPolicies : Policies := ⟨⟨false, []⟩, ⟨false, []⟩, none, []⟩

def maxExtensions : ℕ := 64
def maxBlobBytes : ℕ := 4096
def maxDirBytes : ℕ := 1024

def setFileWatch (s : Policies) (input : List UInt8) (alloc : ℕ → Bool) : Status × Policies :=
  let header := sizeof FileWatchPolicy.fields
  let enabled := readUchar input FileWatchPolicy.enabled
  let count := readUlong input FileWatchPolicy.extensionsCount
  let blobBytes := readUlong input FileWatchPolicy.extensionsBytes
  if input.length < header ∨ enabled > 1 then (.invalidParameter, s)
  else if blobBytes > maxBlobBytes ∨ blobBytes % 2 ≠ 0 ∨ count > maxExtensions ∨
      input.length ≠ header + blobBytes then (.invalidParameter, s)
  else if enabled = 0 ∨ count = 0 then (.success, { s with watch := ⟨enabled ≠ 0, []⟩ })
  else if !(alloc 0 && alloc 1) then (.insufficientResources, s)
  else
    match NulList.take 0 (fun i => alloc (2 + i)) count (readWide input header blobBytes) with
    | none => (.invalidParameter, s)
    | some extensions => (.success, { s with watch := ⟨true, extensions⟩ })

/-- `DropTarget::Apply`; `none` is the return of false. -/
def applyTarget (dir : List UInt16) (allocated : Bool) : Option (List UInt16) :=
  let kept := dir.take (min (2 * dir.length) maxDirBytes / 2)
  if kept = [] then none else if allocated then some kept else none

def setDropPolicy (s : Policies) (input : List UInt8) (alloc : ℕ → Bool) : Status × Policies :=
  let header := sizeof DropPolicy.fields
  let enabled := readUchar input DropPolicy.enabled
  let count := readUlong input DropPolicy.extensionsCount
  let extBytes := readUlong input DropPolicy.extensionsBytes
  let dirBytes := readUlong input DropPolicy.dirBytes
  if input.length < header ∨ enabled > 1 then (.invalidParameter, s)
  else if extBytes > maxBlobBytes ∨ extBytes % 2 ≠ 0 ∨ count > maxExtensions ∨ dirBytes = 0 ∨
      dirBytes > maxDirBytes ∨ dirBytes % 2 ≠ 0 ∨ input.length ≠ header + extBytes + dirBytes then
    (.invalidParameter, s)
  else if enabled = 0 then (.success, { s with dropWatch := ⟨false, []⟩ })
  else if (readWide input (header + extBytes) dirBytes).getLast? ≠ some 0 then (.invalidParameter, s)
  else if !(alloc 0 && alloc 1) then (.insufficientResources, s)
  else
    match NulList.take 0 (fun i => alloc (2 + i)) count (readWide input header extBytes) with
    | none => (.invalidParameter, s)
    | some extensions =>
      -- the directory is the last to be allocated, and the first to be applied
      match applyTarget (readWide input (header + extBytes) (dirBytes - 2)) (alloc (2 + count)) with
      | none => (.insufficientResources, s)
      | some dir => (.success, { s with dropWatch := ⟨true, extensions⟩, target := some dir })

def setProtected (s : Policies) (input : List UInt8) (alloc : ℕ → Bool) : Status × Policies :=
  let header := sizeof ProtectionPolicy.fields
  let enabled := readUchar input ProtectionPolicy.enabled
  let namesBytes := readUlong input ProtectionPolicy.namesBytes
  if input.length < header ∨ enabled > 1 then (.invalidParameter, s)
  else if namesBytes > 4096 ∨ namesBytes % 2 ≠ 0 ∨ input.length ≠ header + namesBytes then
    (.invalidParameter, s)
  else
    match protectionSetPolicy (enabled ≠ 0) (ushortString (readWide input header namesBytes)) alloc with
    | none => (.insufficientResources, s)
    | some names => (.success, { s with protectedNames := names })

/-! ## Rejections -/

theorem setFileWatch_rejected (s : Policies) (input : List UInt8) (alloc : ℕ → Bool)
    (h : (setFileWatch s input alloc).1 ≠ .success) : (setFileWatch s input alloc).2 = s := by
  unfold setFileWatch at h ⊢
  simp only at h ⊢
  split_ifs at h ⊢ with hheader hchecks hswitch hmemory
  · rfl
  · rfl
  · exact absurd rfl h
  · rfl
  · split at h
    · rfl
    · exact absurd rfl h

theorem setDropPolicy_rejected (s : Policies) (input : List UInt8) (alloc : ℕ → Bool)
    (h : (setDropPolicy s input alloc).1 ≠ .success) : (setDropPolicy s input alloc).2 = s := by
  unfold setDropPolicy at h ⊢
  simp only at h ⊢
  split_ifs at h ⊢ with hheader hchecks hswitch hdir hmemory
  · rfl
  · rfl
  · exact absurd rfl h
  · rfl
  · rfl
  · split at h
    · rfl
    · split at h
      · rfl
      · exact absurd rfl h

theorem setProtected_rejected (s : Policies) (input : List UInt8) (alloc : ℕ → Bool)
    (h : (setProtected s input alloc).1 ≠ .success) : (setProtected s input alloc).2 = s := by
  unfold setProtected at h ⊢
  simp only at h ⊢
  split_ifs at h ⊢ with hheader hchecks
  · rfl
  · rfl
  · split at h
    · rfl
    · exact absurd rfl h

end SecOutfall.Control
