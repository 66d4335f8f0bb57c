import SecOutfall.Wire.RoundTrip

/-! The truncation flags of a record against the bytes it carries.

Every routine computes a flag from the string it was handed. The old name of a rename is capped
once before, where no flag is kept, so its second cap never cuts. -/
namespace SecOutfall.Wire
open Bytes
set_option autoImplicit false

/-! ## Variable-length fields -/

def wordAt (record : List UInt8) (pos n : ℕ) : ℕ := leValue (slice record pos n)

/-- The bytes an offset and length pair of a record points to. -/
def extent (record : List UInt8) (offset bytes : ℕ) : List UInt8 :=
  slice record (wordAt record offset 2) (wordAt record bytes 2)

/-- The value data follows the value name and has a length but no offset field. -/
def dataExtent (record : List UInt8) : List UInt8 :=
  slice record (wordAt record RegistrySetValueRecord.valueNameOffset 2 +
    wordAt record RegistrySetValueRecord.valueNameBytes 2) (wordAt record RegistrySetValueRecord.dataBytes 4)

def sourceBytes (src : Option UnicodeString) : List UInt8 := (src.map UnicodeString.bytes).getD []

structure CarriedField where
  flag : UInt8
  source : List UInt8
  carried : List UInt8

/-- The variable-length fields of an emission in the record it became. A set-value without a data
buffer is not emitted by the callback and has no data source. -/
def Emission.fields (record : List UInt8) : Emission → List CarriedField
  | .processCreated _ _ cmd image =>
    [⟨truncCmdline, sourceBytes cmd, extent record ProcessCreatedRecord.commandLineOffset
      ProcessCreatedRecord.commandLineBytes⟩,
     ⟨truncImageName, sourceBytes image, extent record ProcessCreatedRecord.imageNameOffset
      ProcessCreatedRecord.imageNameBytes⟩]
  | .imageLoaded _ _ _ name _ =>
    [⟨truncImageName, sourceBytes name, extent record ImageLoadedRecord.nameOffset
      ImageLoadedRecord.nameBytes⟩]
  | .registryKeyCreated path _ _ | .registryKeyDeleted path _ _ =>
    [⟨truncKeyPath, sourceBytes path, extent record RegistryKeyRecord.pathOffset
      RegistryKeyRecord.pathBytes⟩]
  | .registrySetValue key name _ value _ _ =>
    [⟨truncKeyPath, sourceBytes key, extent record RegistrySetValueRecord.keyPathOffset
      RegistrySetValueRecord.keyPathBytes⟩,
     ⟨truncValueName, sourceBytes name, extent record RegistrySetValueRecord.valueNameOffset
      RegistrySetValueRecord.valueNameBytes⟩] ++
    value.data.toList.map fun data => ⟨truncData, data, dataExtent record⟩
  | .fileCreated path _ _ | .fileCleanedUp path _ _ | .fileDeleted path _ _ =>
    [⟨truncFilePath, sourceBytes path, extent record FileRecord.pathOffset FileRecord.pathBytes⟩]
  | .fileWritten path _ _ _ _ =>
    [⟨truncFilePath, sourceBytes path, extent record FileWrittenRecord.pathOffset
      FileWrittenRecord.pathBytes⟩]
  | .fileRenamed oldName newPath _ _ =>
    [⟨truncOldPath, sourceBytes oldName, extent record FileRenamedRecord.oldPathOffset
      FileRenamedRecord.oldPathBytes⟩,
     ⟨truncNewPath, sourceBytes newPath, extent record FileRenamedRecord.newPathOffset
      FileRenamedRecord.newPathBytes⟩]
  | .dropCaptured path storedName _ _ _ =>
    [⟨truncFilePath, sourceBytes path, extent record DropCapturedRecord.pathOffset
      DropCapturedRecord.pathBytes⟩,
     ⟨truncNewPath, sourceBytes storedName, extent record DropCapturedRecord.storedOffset
      DropCapturedRecord.storedBytes⟩]
  | .processExited _ _ | .threadCreated _ _ _ | .threadExited _ _ _
  | .behaviorCall _ _ _ _ _ _ _ _ | .protectionEvent _ _ _ _ _ _ _ => []

def Flagged (record : List UInt8) (flag : UInt8) : Prop :=
  record.getD RecordHeader.truncFlags 0 &&& flag ≠ 0

def StrictPrefix (carried source : List UInt8) : Prop := carried <+: source ∧ carried ≠ source

/-- A field's flag is set exactly if the record cuts the field short. -/
def Emission.FlagsExact (e : Emission) (stamp : Stamp) : Prop :=
  ∀ field ∈ e.fields (e.record stamp),
    (Flagged (e.record stamp) field.flag ↔ StrictPrefix field.carried field.source)

/-- The old name of a rename is whole after the capture of the pre-operation callback. -/
def Emission.OldNameFits : Emission → Prop
  | .fileRenamed (some name) _ _ _ => name.length ≤ maxFilePathBytes ∧ name.length % 2 = 0
  | _ => True

/-! ## Fields of emitted records -/

theorem take_strictPrefix (source : List UInt8) (n : ℕ) :
    StrictPrefix (source.take n) source ↔ n < source.length := by
  constructor
  · rintro ⟨-, hne⟩
    by_contra hle
    exact hne (List.take_of_length_le (by omega))
  · intro hlt
    refine ⟨List.take_prefix n source, fun heq => ?_⟩
    have hlength := congrArg List.length heq
    rw [List.length_take] at hlength
    omega

theorem copyNameW_strictPrefix (src : Option UnicodeString) (cap : ℕ) :
    StrictPrefix (copyNameW src cap).bytes (sourceBytes src) ↔ isCut cap src = true := by
  rw [← copyNameW_truncated]
  cases src with
  | none => simp [StrictPrefix, copyNameW, sourceBytes]
  | some s =>
    rw [copyNameW_some, decide_eq_true_iff]
    exact take_strictPrefix s.bytes _

theorem wordAt_of_holds {record : List UInt8} {pos n v : ℕ} (h : Holds record pos (leBytes n v)) :
    wordAt record pos n = v % 256 ^ n := by
  have hslice := h.2
  rw [leBytes_length] at hslice
  rw [wordAt, hslice, leValue_leBytes]

theorem wordAt_ushort {record : List UInt8} {pos n : ℕ} (hn : n < 2 ^ 16)
    (h : Holds record pos (leBytes 2 (UInt16.ofNat n).toNat)) : wordAt record pos 2 = n := by
  have hv : (UInt16.ofNat n).toNat = n := UInt16.toNat_ofNat_of_lt hn
  rw [wordAt_of_holds h, hv, Nat.mod_eq_of_lt (by omega)]

/-- The offset field of an empty region may hold anything. -/
theorem extent_of_holds {record bs : List UInt8} {offset bytes off : ℕ}
    (hoff : 0 < bs.length → wordAt record offset 2 = off) (hbytes : wordAt record bytes 2 = bs.length)
    (h : Holds record off bs) : extent record offset bytes = bs := by
  rw [extent, hbytes]
  by_cases hpos : 0 < bs.length
  · rw [hoff hpos, h.2]
  · have hnil : bs = [] := List.length_eq_zero_iff.mp (by omega)
    rw [hnil]
    exact List.take_zero

/-- A field that holds `CopyNameW`'s copy of its source, under a flag set by that copy. -/
theorem flagged_copy {record : List UInt8} {flag : UInt8} {src : Option UnicodeString}
    {offset bytes off : ℕ} (cap : ℕ) (hcap : cap < 2 ^ 16)
    (hflag : Flagged record flag ↔ isCut cap src = true)
    (hoff : 0 < (copyNameW src cap).bytes.length → wordAt record offset 2 = off)
    (hbytes : Holds record bytes (leBytes 2 (UInt16.ofNat (copyNameW src cap).bytes.length).toNat))
    (h : Holds record off (copyNameW src cap).bytes) :
    Flagged record flag ↔ StrictPrefix (extent record offset bytes) (sourceBytes src) := by
  have hle := copyNameW_le src cap
  rw [hflag, extent_of_holds hoff (wordAt_ushort (by omega) hbytes) h, copyNameW_strictPrefix]

theorem flagged_data {record : List UInt8} {value : ValueData} {data : List UInt8}
    (hdata : value.data = some data)
    (hflag : Flagged record truncData ↔ maxValueDataBytes < value.dataLength.toNat)
    (hcarried : dataExtent record = value.carried) :
    Flagged record truncData ↔ StrictPrefix (dataExtent record) data := by
  have hlength := value.data_length data hdata
  rw [hflag, hcarried, value.carried_of_some hdata, take_strictPrefix, hlength, ValueData.copiedBytes]
  omega

/-! ## The routines -/

section
variable {buf : List UInt8} {type : RecordType} {pid : UInt32} {processCreateTime : UInt64} {stamp : Stamp}

theorem Headed.flagged {flags : UInt8} (h : Headed buf type pid processCreateTime stamp flags)
    (flag : UInt8) : Flagged buf flag ↔ flags &&& flag ≠ 0 := by
  rw [Flagged, RecordHeader.truncFlags_off, h.truncFlags]

theorem registryKey_exact (path : Option UnicodeString) (identity : UInt64) :
    Flagged (emitRegistryKeyRecord type path pid identity stamp) truncKeyPath ↔
      StrictPrefix (extent (emitRegistryKeyRecord type path pid identity stamp)
        RegistryKeyRecord.pathOffset RegistryKeyRecord.pathBytes) (sourceBytes path) := by
  obtain ⟨hheaded, -, hw⟩ := @emitted_registryKeyRecord type pid stamp path identity
  simp only [List.forall_mem_cons, ushortAt, memcpy] at hw
  obtain ⟨hpath, hbytes, hdata, -⟩ := hw
  refine flagged_copy maxKeyPathBytes (by decide) ?_
    (fun _ => wordAt_ushort (n := 52) (by decide) hpath) hbytes hdata
  rw [hheaded.flagged]
  cases isCut maxKeyPathBytes path <;> decide

theorem fileRecord_exact (path : Option UnicodeString) (identity : UInt64) :
    Flagged (emitFileRecord type path pid identity stamp) truncFilePath ↔
      StrictPrefix (extent (emitFileRecord type path pid identity stamp)
        FileRecord.pathOffset FileRecord.pathBytes) (sourceBytes path) := by
  obtain ⟨hheaded, -, hw⟩ := @emitted_fileRecord type pid stamp path identity
  simp only [List.forall_mem_cons, ushortAt, memcpy] at hw
  obtain ⟨hpath, hbytes, hdata, -⟩ := hw
  refine flagged_copy maxFilePathBytes (by decide) ?_
    (fun _ => wordAt_ushort (n := 52) (by decide) hpath) hbytes hdata
  rw [hheaded.flagged]
  cases isCut maxFilePathBytes path <;> decide

theorem imageLoaded_exact (imageBase imageSize : UInt64) (name : Option UnicodeString) (identity : UInt64) :
    Flagged (emitImageLoaded pid imageBase imageSize name identity stamp) truncImageName ↔
      StrictPrefix (extent (emitImageLoaded pid imageBase imageSize name identity stamp)
        ImageLoadedRecord.nameOffset ImageLoadedRecord.nameBytes) (sourceBytes name) := by
  obtain ⟨hheaded, -, hw⟩ := emitted_imageLoaded pid imageBase imageSize name identity stamp
  simp only [List.forall_mem_cons, ushortAt, memcpy] at hw
  obtain ⟨-, -, hoffset, hbytes, hcopy, -⟩ := hw
  refine flagged_copy maxImageNameBytes (by decide) ?_
    (fun _ => wordAt_ushort (by decide) hoffset) hbytes hcopy
  rw [hheaded.flagged]
  cases isCut maxImageNameBytes name <;> decide

theorem fileWritten_exact (path : Option UnicodeString) (offset : UInt64) (length : UInt32)
    (identity : UInt64) :
    Flagged (emitFileWritten path offset length pid identity stamp) truncFilePath ↔
      StrictPrefix (extent (emitFileWritten path offset length pid identity stamp)
        FileWrittenRecord.pathOffset FileWrittenRecord.pathBytes) (sourceBytes path) := by
  obtain ⟨hheaded, -, hw⟩ := emitted_fileWritten path offset length pid identity stamp
  simp only [List.forall_mem_cons, ushortAt, memcpy] at hw
  obtain ⟨-, -, hoffset, hbytes, hcopy, -⟩ := hw
  refine flagged_copy maxFilePathBytes (by decide) ?_
    (fun _ => wordAt_ushort (by decide) hoffset) hbytes hcopy
  rw [hheaded.flagged]
  cases isCut maxFilePathBytes path <;> decide

theorem processCreated_exact (parent : UInt32) (cmd image : Option UnicodeString) :
    let record := emitProcessCreated pid parent cmd image stamp
    (Flagged record truncCmdline ↔ StrictPrefix (extent record ProcessCreatedRecord.commandLineOffset
      ProcessCreatedRecord.commandLineBytes) (sourceBytes cmd)) ∧
    (Flagged record truncImageName ↔ StrictPrefix (extent record ProcessCreatedRecord.imageNameOffset
      ProcessCreatedRecord.imageNameBytes) (sourceBytes image)) := by
  have hle := copyNameW_le cmd maxCommandLineBytes
  have hcap : maxCommandLineBytes = 8192 := rfl
  obtain ⟨hheaded, -, hw⟩ := emitted_processCreated pid parent cmd image stamp
  simp only [List.forall_mem_cons, ushortAt, memcpy] at hw
  obtain ⟨-, hcoff, hcbytes, hioff, hibytes, hcmd, himage, -⟩ := hw
  refine ⟨flagged_copy maxCommandLineBytes (by decide) ?_ (fun hpos => ?_) hcbytes hcmd,
    flagged_copy maxImageNameBytes (by decide) ?_ (fun hpos => ?_) hibytes himage⟩
  · rw [hheaded.flagged]
    cases isCut maxCommandLineBytes cmd <;> cases isCut maxImageNameBytes image <;> decide
  · rw [if_pos hpos] at hcoff
    exact wordAt_ushort (by decide) hcoff
  · rw [hheaded.flagged]
    cases isCut maxCommandLineBytes cmd <;> cases isCut maxImageNameBytes image <;> decide
  · rw [if_pos hpos] at hioff
    exact wordAt_ushort (by omega) hioff

theorem registrySetValue_exact (key name : Option UnicodeString) (dataType : UInt32) (value : ValueData)
    (identity : UInt64) :
    let record := emitRegistrySetValue key name dataType value pid identity stamp
    (Flagged record truncKeyPath ↔ StrictPrefix (extent record RegistrySetValueRecord.keyPathOffset
      RegistrySetValueRecord.keyPathBytes) (sourceBytes key)) ∧
    (Flagged record truncValueName ↔ StrictPrefix (extent record RegistrySetValueRecord.valueNameOffset
      RegistrySetValueRecord.valueNameBytes) (sourceBytes name)) ∧
    ∀ data, value.data = some data →
      (Flagged record truncData ↔ StrictPrefix (dataExtent record) data) := by
  have hle := copyNameW_le key maxKeyPathBytes
  have hle' := copyNameW_le name maxValueNameBytes
  have hdle : value.copiedBytes ≤ 128 := Nat.min_le_right _ _
  have hcap : maxKeyPathBytes = 1024 := rfl
  have hcap' : maxValueNameBytes = 512 := rfl
  obtain ⟨hheaded, -, hw⟩ := emitted_registrySetValue key name dataType value pid identity stamp
  simp only [List.forall_mem_cons, ushortAt, ulongAt, memcpy] at hw
  obtain ⟨hkoff, hkbytes, hvoff, hvbytes, -, hdbytes, hkey, hname, hcarried, -⟩ := hw
  refine ⟨flagged_copy maxKeyPathBytes (by decide) ?_
      (fun _ => wordAt_ushort (by decide) hkoff) hkbytes hkey,
    flagged_copy maxValueNameBytes (by decide) ?_
      (fun _ => wordAt_ushort (by omega) hvoff) hvbytes hname, fun data hdata => ?_⟩
  · rw [hheaded.flagged]
    cases isCut maxKeyPathBytes key <;> cases isCut maxValueNameBytes name <;>
      cases decide (maxValueDataBytes < value.dataLength.toNat) <;> decide
  · rw [hheaded.flagged]
    cases isCut maxKeyPathBytes key <;> cases isCut maxValueNameBytes name <;>
      cases decide (maxValueDataBytes < value.dataLength.toNat) <;> decide
  · refine flagged_data hdata ?_ ?_
    · rw [hheaded.flagged]
      refine Iff.trans ?_ decide_eq_true_iff
      cases isCut maxKeyPathBytes key <;> cases isCut maxValueNameBytes name <;>
        cases decide (maxValueDataBytes < value.dataLength.toNat) <;> decide
    · have hdnat : (UInt32.ofNat value.copiedBytes).toNat = value.copiedBytes :=
        UInt32.toNat_ofNat_of_lt (by simp only [UInt32.size]; omega)
      have hbytes := wordAt_of_holds hdbytes
      rw [hdnat, Nat.mod_eq_of_lt (by omega), ← value.carried_length] at hbytes
      have hstart : wordAt (emitRegistrySetValue key name dataType value pid identity stamp) 52 2 +
          wordAt (emitRegistrySetValue key name dataType value pid identity stamp) 54 2 =
          64 + (copyNameW key maxKeyPathBytes).bytes.length +
            (copyNameW name maxValueNameBytes).bytes.length := by
        rw [wordAt_ushort (by omega) hvoff, wordAt_ushort (by omega) hvbytes]
      rw [dataExtent, RegistrySetValueRecord.valueNameOffset_off,
        RegistrySetValueRecord.valueNameBytes_off, RegistrySetValueRecord.dataBytes_off, hbytes, hstart,
        hcarried.2]

theorem dropCaptured_exact (path storedName : Option UnicodeString) (method : UInt32) (identity : UInt64) :
    let record := emitDropCaptured path storedName method pid identity stamp
    (Flagged record truncFilePath ↔ StrictPrefix (extent record DropCapturedRecord.pathOffset
      DropCapturedRecord.pathBytes) (sourceBytes path)) ∧
    (Flagged record truncNewPath ↔ StrictPrefix (extent record DropCapturedRecord.storedOffset
      DropCapturedRecord.storedBytes) (sourceBytes storedName)) := by
  have hle := copyNameW_le path maxFilePathBytes
  have hcap : maxFilePathBytes = 1024 := rfl
  obtain ⟨hheaded, -, hw⟩ := emitted_dropCaptured path storedName method pid identity stamp
  simp only [List.forall_mem_cons, ushortAt, memcpy] at hw
  obtain ⟨hpoff, hpbytes, hsoff, hsbytes, -, hpath, hstored, -⟩ := hw
  refine ⟨flagged_copy maxFilePathBytes (by decide) ?_
      (fun _ => wordAt_ushort (by decide) hpoff) hpbytes hpath,
    flagged_copy storedScratchBytes (by decide) ?_
      (fun _ => wordAt_ushort (by omega) hsoff) hsbytes hstored⟩
  · rw [hheaded.flagged]
    cases isCut maxFilePathBytes path <;> cases isCut storedScratchBytes storedName <;> decide
  · rw [hheaded.flagged]
    cases isCut maxFilePathBytes path <;> cases isCut storedScratchBytes storedName <;> decide

/-! ## Renames -/

/-- A captured old name is within the cap of the routine that copies it. -/
theorem captureOldPath_uncut (name : UnicodeString) :
    isCut maxFilePathBytes (some (captureOldPath name)) = false ∧
      (copyNameW (some (captureOldPath name)) maxFilePathBytes).bytes = (captureOldPath name).bytes := by
  have hcap : maxFilePathBytes = 1024 := rfl
  have hlength : (captureOldPath name).bytes.length = min name.bytes.length 1024 / 2 * 2 := by
    rw [captureOldPath, List.length_take, UnicodeString.length, hcap]
    omega
  rw [← copyNameW_truncated, copyNameW_some]
  exact ⟨by rw [decide_eq_false_iff_not]; omega, List.take_of_length_le (by omega)⟩

theorem fileRenamed_newPath_exact (context newPath : Option UnicodeString) (identity : UInt64) :
    Flagged (emitFileRenamed context newPath pid identity stamp) truncNewPath ↔
      StrictPrefix (extent (emitFileRenamed context newPath pid identity stamp)
        FileRenamedRecord.newPathOffset FileRenamedRecord.newPathBytes) (sourceBytes newPath) := by
  have hle := copyNameW_le context maxFilePathBytes
  have hcap : maxFilePathBytes = 1024 := rfl
  obtain ⟨hheaded, -, hw⟩ := emitted_fileRenamed context newPath pid identity stamp
  simp only [List.forall_mem_cons, ushortAt, memcpy] at hw
  obtain ⟨-, -, hnoff, hnbytes, -, hnew, -⟩ := hw
  refine flagged_copy maxFilePathBytes (by decide) ?_
    (fun _ => wordAt_ushort (by omega) hnoff) hnbytes hnew
  rw [hheaded.flagged]
  cases isCut maxFilePathBytes context <;> cases isCut maxFilePathBytes newPath <;> decide

/-- The flag of the old path is never set, so it is right exactly for a name the capture keeps whole. -/
theorem fileRenamed_oldPath_exact_iff (oldName newPath : Option UnicodeString) (identity : UInt64) :
    (Flagged (emitFileRenamed (oldName.map captureOldPath) newPath pid identity stamp) truncOldPath ↔
      StrictPrefix (extent (emitFileRenamed (oldName.map captureOldPath) newPath pid identity stamp)
        FileRenamedRecord.oldPathOffset FileRenamedRecord.oldPathBytes) (sourceBytes oldName)) ↔
      (Emission.fileRenamed oldName newPath pid identity).OldNameFits := by
  obtain ⟨hheaded, -, hw⟩ := emitted_fileRenamed (oldName.map captureOldPath) newPath pid identity stamp
  simp only [List.forall_mem_cons, ushortAt, memcpy] at hw
  obtain ⟨hooff, hobytes, -, -, hold, -⟩ := hw
  cases oldName with
  | none =>
    simp only [Emission.OldNameFits, iff_true]
    refine flagged_copy maxFilePathBytes (by decide) ?_
      (fun _ => wordAt_ushort (by decide) hooff) hobytes hold
    rw [hheaded.flagged]
    cases isCut maxFilePathBytes newPath <;> decide
  | some name =>
    have hcap : maxFilePathBytes = 1024 := rfl
    obtain ⟨huncut, hbytes⟩ := captureOldPath_uncut name
    have hlow : (captureOldPath name).bytes.length < 2 ^ 16 := (captureOldPath name).length_lt
    rw [Option.map_some] at hheaded hooff hobytes hold ⊢
    rw [hbytes] at hobytes hold
    have hextent : extent (emitFileRenamed (some (captureOldPath name)) newPath pid identity stamp) 48 50 =
        (captureOldPath name).bytes :=
      extent_of_holds (fun _ => wordAt_ushort (by decide) hooff) (wordAt_ushort hlow hobytes) hold
    have hunflagged : ¬ Flagged (emitFileRenamed (some (captureOldPath name)) newPath pid identity stamp)
        truncOldPath := by
      rw [hheaded.flagged, huncut]
      cases isCut maxFilePathBytes newPath <;> decide
    have hcut : StrictPrefix (captureOldPath name).bytes (sourceBytes (some name)) ↔
        min name.length maxFilePathBytes / 2 * 2 < name.length := take_strictPrefix name.bytes _
    rw [FileRenamedRecord.oldPathOffset_off, FileRenamedRecord.oldPathBytes_off, hextent, hcut,
      Emission.OldNameFits, iff_false_left hunflagged]
    omega

theorem fileRenamed_exact_iff (oldName newPath : Option UnicodeString) (pid : UInt32)
    (identity : UInt64) :
    (Emission.fileRenamed oldName newPath pid identity).FlagsExact stamp ↔
      (Emission.fileRenamed oldName newPath pid identity).OldNameFits := by
  have hnew := @fileRenamed_newPath_exact pid stamp (oldName.map captureOldPath) newPath identity
  rw [← @fileRenamed_oldPath_exact_iff pid stamp]
  simp only [Emission.FlagsExact, Emission.fields, List.forall_mem_cons]
  exact ⟨And.left, fun hold => ⟨hold, hnew, by simp⟩⟩

end

/-! ## All emissions -/

/-- Every flag of a record is set exactly when its field is cut, unless the record is a rename whose
old name the pre-operation callback could not keep whole. -/
theorem flags_exact_iff (e : Emission) (stamp : Stamp) : e.FlagsExact stamp ↔ e.OldNameFits := by
  cases e with
  | processCreated pid parent cmd image =>
    obtain ⟨hcmd, himage⟩ := @processCreated_exact pid stamp parent cmd image
    simp only [Emission.FlagsExact, Emission.fields, List.forall_mem_cons, Emission.OldNameFits, iff_true]
    exact ⟨hcmd, himage, by simp⟩
  | imageLoaded pid base size name identity =>
    simp only [Emission.FlagsExact, Emission.fields, List.forall_mem_cons, Emission.OldNameFits, iff_true]
    exact ⟨imageLoaded_exact base size name identity, by simp⟩
  | registryKeyCreated path pid identity | registryKeyDeleted path pid identity =>
    simp only [Emission.FlagsExact, Emission.fields, List.forall_mem_cons, Emission.OldNameFits, iff_true]
    exact ⟨registryKey_exact path identity, by simp⟩
  | registrySetValue key name dataType value pid identity =>
    obtain ⟨hkey, hname, hdata⟩ := @registrySetValue_exact pid stamp key name dataType value identity
    simp only [Emission.FlagsExact, Emission.fields, List.forall_mem_append, List.forall_mem_cons,
      List.forall_mem_map, Option.mem_toList, Emission.OldNameFits, iff_true]
    exact ⟨⟨hkey, hname, by simp⟩, hdata⟩
  | fileCreated path pid identity | fileCleanedUp path pid identity | fileDeleted path pid identity =>
    simp only [Emission.FlagsExact, Emission.fields, List.forall_mem_cons, Emission.OldNameFits, iff_true]
    exact ⟨fileRecord_exact path identity, by simp⟩
  | fileWritten path offset length pid identity =>
    simp only [Emission.FlagsExact, Emission.fields, List.forall_mem_cons, Emission.OldNameFits, iff_true]
    exact ⟨fileWritten_exact path offset length identity, by simp⟩
  | fileRenamed oldName newPath pid identity =>
    exact fileRenamed_exact_iff oldName newPath pid identity
  | dropCaptured path storedName method pid identity =>
    obtain ⟨hpath, hstored⟩ := @dropCaptured_exact pid stamp path storedName method identity
    simp only [Emission.FlagsExact, Emission.fields, List.forall_mem_cons, Emission.OldNameFits, iff_true]
    exact ⟨hpath, hstored, by simp⟩
  | processExited pid createTime => simp [Emission.FlagsExact, Emission.fields, Emission.OldNameFits]
  | threadCreated pid tid identity | threadExited pid tid identity =>
    simp [Emission.FlagsExact, Emission.fields, Emission.OldNameFits]
  | behaviorCall pid createTime tid api arg0 arg1 arg2 arg3 =>
    simp [Emission.FlagsExact, Emission.fields, Emission.OldNameFits]
  | protectionEvent opener openerId target targetTime isThread original stripped =>
    simp [Emission.FlagsExact, Emission.fields, Emission.OldNameFits]

/-! ## A long old name -/

def longName : UnicodeString := ⟨List.replicate 1026 0x41, by rw [List.length_replicate]; omega⟩

/-- The last code unit of the old name is lost and the record says nothing. -/
theorem longOldName_unflagged :
    ¬ (Emission.fileRenamed (some longName) none 4 0).FlagsExact ⟨1, 0⟩ := by
  rw [fileRenamed_exact_iff]
  rintro ⟨hle, -⟩
  have hlength : longName.length = 1026 := List.length_replicate
  rw [hlength] at hle
  exact absurd hle (by decide)

end SecOutfall.Wire
