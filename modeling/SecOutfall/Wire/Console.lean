import SecOutfall.Wire.Dump
import SecOutfall.Wire.RoundTrip

/-! What the driver emits, the console shows. -/
namespace SecOutfall.Wire
open Bytes Utf16
set_option autoImplicit false

/-! ## What a line means -/

/-- What the console shows of a source string: its capped units up to a NUL. -/
def cappedShown (cap : ℕ) (src : Option UnicodeString) : List UInt16 := cStr (cappedUnits cap src)

/-- The line in terms of the routine's arguments; a string is marked as truncated where it was cut. -/
def Emission.line : Emission → Line
  | .processCreated pid parent cmd _ =>
    .processCreated pid parent 0
      (if cappedUnits maxCommandLineBytes cmd = [] then noCommandLine else cappedShown maxCommandLineBytes cmd)
      (isCut maxCommandLineBytes cmd)
  | .processExited pid createTime => .processExited pid createTime
  | .threadCreated pid tid _ => .thread tid true pid
  | .threadExited pid tid _ => .thread tid false pid
  | .imageLoaded pid base size name _ =>
    .image (cappedShown maxImageNameBytes name) pid base size.toUInt32 (isCut maxImageNameBytes name)
  | .registryKeyCreated path pid _ =>
    .registryKey true (cappedShown maxKeyPathBytes path) pid (isCut maxKeyPathBytes path)
  | .registryKeyDeleted path pid _ =>
    .registryKey false (cappedShown maxKeyPathBytes path) pid (isCut maxKeyPathBytes path)
  | .registrySetValue key name dataType value pid _ =>
    .registryWrite pid (cappedShown maxKeyPathBytes key) (cappedShown maxValueNameBytes name) dataType
      (.ofNat value.copiedBytes) (isCut maxKeyPathBytes key) (maxValueDataBytes < value.dataLength.toNat)
  | .fileCreated path pid _ =>
    .file "created" (cappedShown maxFilePathBytes path) pid (isCut maxFilePathBytes path)
  | .fileWritten path offset length pid _ =>
    .fileWrite length offset (cappedShown maxFilePathBytes path) pid (isCut maxFilePathBytes path)
  | .fileCleanedUp path pid _ =>
    .file "cleaned-up" (cappedShown maxFilePathBytes path) pid (isCut maxFilePathBytes path)
  | .fileDeleted path pid _ =>
    .file "deleted" (cappedShown maxFilePathBytes path) pid (isCut maxFilePathBytes path)
  | .fileRenamed oldName newPath pid _ =>
    .fileRenamed pid (cappedShown maxFilePathBytes (oldName.map captureOldPath))
      (cappedShown maxFilePathBytes newPath) (isCut maxFilePathBytes (oldName.map captureOldPath))
      (isCut maxFilePathBytes newPath)
  | .dropCaptured path stored method pid _ =>
    .drop (method == 0) (cappedShown maxFilePathBytes path) (cappedShown storedScratchBytes stored) pid
      (isCut maxFilePathBytes path)
  | .behaviorCall pid _ tid api arg0 arg1 arg2 arg3 => .behavior api tid arg0 arg1 arg2 arg3 pid
  | .protectionEvent opener _ target _ isThread original stripped =>
    .protection (isThread != 0) target opener stripped original

/-! ## Texts and flags -/

section
variable {record : List UInt8} {pos off cap : ℕ} {src : Option UnicodeString} {text : String} {shown : List UInt16}

/-- A copied string behind the header is shown as it was copied. -/
theorem Shown.copied (h : Shown record pos text shown) (hcap : cap < 2 ^ 16) (hlow : 48 ≤ off)
    (hoffset : extentAt record pos = .ok off)
    (hbytes : Holds record (pos + 2) (leBytes 2 (UInt16.ofNat (copyNameW src cap).bytes.length).toNat))
    (hcopy : Holds record off (copyNameW src cap).bytes) : shown = cappedShown cap src := by
  have hle := copyNameW_le src cap
  have hlength := extentAt_of_word (by omega) hbytes
  obtain ⟨offset, bytes, hoffset', hbytes', hshown⟩ := h
  obtain rfl := Except.ok.inj (hoffset.symm.trans hoffset')
  obtain rfl := Except.ok.inj (hlength.symm.trans hbytes')
  rw [if_pos (rangeOk_iff.mpr ⟨copyNameW_even src cap, hlow, hcopy.1⟩)] at hshown
  rw [hshown.2, hcopy.2, unitsOf_copyNameW, cappedShown]

end

end SecOutfall.Wire
