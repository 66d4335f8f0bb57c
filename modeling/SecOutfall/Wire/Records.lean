import SecOutfall.Wire.Common

/-! The emitting routines of `driver/secoutfall/secoutfall.cpp`, as the bytes they leave in the
wire record.

A record is the region `[&item->Item, &item->Item + totalSize)` of a pool block that
`ExAllocatePool2` hands out zeroed. Every routine caps its source strings into scratch buffers,
allocates, ORs the truncation flags into the header and assigns the fields; `writeAll` is that
straight-line code. -/
namespace SecOutfall.Wire
open Bytes
set_option autoImplicit false

/-! ## Counted strings -/

/-- A `UNICODE_STRING` with a buffer: its `Length` bytes. `Length` is a `USHORT`. -/
structure UnicodeString where
  bytes : List UInt8
  length_lt : bytes.length < 2 ^ 16

def UnicodeString.length (s : UnicodeString) : ℕ := s.bytes.length

/-- What `CopyNameW` left in the scratch buffer, and its out-parameter. -/
structure Copied where
  bytes : List UInt8
  truncated : Bool
  deriving DecidableEq, Repr

/-- `CopyNameW`; a null string and a null `Buffer` are both `none`. -/
def copyNameW (src : Option UnicodeString) (capBytes : ℕ) : Copied :=
  match src with
  | none => ⟨[], false⟩
  | some s =>
    if 0 < s.length then
      let bytes := min s.length capBytes
      -- bytes &= ~1: whole WCHARs only
      let bytes := bytes / 2 * 2
      ⟨s.bytes.take bytes, bytes < s.length⟩
    else ⟨[], false⟩

/-! ## Assignments -/

def ucharAt (off : ℕ) (v : UInt8) : Write := ⟨off, leBytes 1 v.toNat⟩
def ushortAt (off : ℕ) (v : UInt16) : Write := ⟨off, leBytes 2 v.toNat⟩
def ulongAt (off : ℕ) (v : UInt32) : Write := ⟨off, leBytes 4 v.toNat⟩
def ulong64At (off : ℕ) (v : UInt64) : Write := ⟨off, leBytes 8 v.toNat⟩
def memcpy (off : ℕ) (bytes : List UInt8) : Write := ⟨off, bytes⟩

/-- What `AllocRecord` takes from the machine: the next sequence number and the system time. -/
structure Stamp where
  sequence : UInt64
  time : UInt64
  deriving DecidableEq, Repr

/-- `AllocRecord`, when the pool had memory. -/
def allocRecord (totalSize : ℕ) (type : RecordType) (pid : UInt32) (processCreateTime : UInt64)
    (stamp : Stamp) : List UInt8 :=
  writeAll (List.replicate totalSize 0)
    [ushortAt RecordHeader.magic wireMagic,
     ucharAt RecordHeader.version wireVersion,
     ucharAt RecordHeader.truncFlags truncNone,
     ushortAt RecordHeader.type type.code,
     ushortAt RecordHeader.headerSize (.ofNat (CLayout.sizeof RecordHeader.fields)),
     ulongAt RecordHeader.processId pid,
     ulong64At RecordHeader.sequence stamp.sequence,
     ulong64At RecordHeader.time stamp.time,
     ulong64At RecordHeader.processCreateTime processCreateTime,
     ulongAt RecordHeader.size (.ofNat totalSize)]

def orTruncFlags (header : List UInt8) (cond : Bool) (flag : UInt8) : List UInt8 :=
  if cond then
    store header RecordHeader.truncFlags [header.getD RecordHeader.truncFlags 0 ||| flag]
  else header

/-! ## Process, thread and image callbacks -/

/-- The creation half of `OnProcessNotify`. The identity is what this record establishes, so its
own `ProcessCreateTime` is 0. -/
def emitProcessCreated (pid parentProcessId : UInt32) (commandLine imageFileName : Option UnicodeString)
    (stamp : Stamp) : List UInt8 :=
  let cmd := copyNameW commandLine maxCommandLineBytes
  let cmdBytes := cmd.bytes.length
  let image := copyNameW imageFileName maxImageNameBytes
  let imageBytes := image.bytes.length
  let header := allocRecord (processCreatedFixed + cmdBytes + imageBytes) .processCreated pid 0 stamp
  let header := orTruncFlags header cmd.truncated truncCmdline
  let header := orTruncFlags header image.truncated truncImageName
  let commandLineOffset : UInt16 := if 0 < cmdBytes then .ofNat processCreatedFixed else 0
  let imageNameOffset : UInt16 := if 0 < imageBytes then .ofNat (processCreatedFixed + cmdBytes) else 0
  let fixed :=
    [ulongAt ProcessCreatedRecord.parentProcessId parentProcessId,
     ushortAt ProcessCreatedRecord.commandLineOffset commandLineOffset,
     ushortAt ProcessCreatedRecord.commandLineBytes (.ofNat cmdBytes),
     ushortAt ProcessCreatedRecord.imageNameOffset imageNameOffset,
     ushortAt ProcessCreatedRecord.imageNameBytes (.ofNat imageBytes)]
  let cmdCopy := if 0 < cmdBytes then [memcpy commandLineOffset.toNat cmd.bytes] else []
  let imageCopy := if 0 < imageBytes then [memcpy imageNameOffset.toNat image.bytes] else []
  writeAll header (fixed ++ cmdCopy ++ imageCopy)

def emitProcessExited (pid : UInt32) (createTime : UInt64) (stamp : Stamp) : List UInt8 :=
  allocRecord processExitedFixed .processExited pid createTime stamp

def emitThread (create : Bool) (pid threadId : UInt32) (identity : UInt64) (stamp : Stamp) :
    List UInt8 :=
  let type := if create then RecordType.threadCreated else .threadExited
  writeAll (allocRecord threadFixed type pid identity stamp)
    [ulongAt ThreadRecord.threadId threadId]

/-- `OnImageLoadNotify`. `ImageSize` is a `SIZE_T` that the wire field narrows to `ULONG`. -/
def emitImageLoaded (pid : UInt32) (imageBase imageSize : UInt64) (fullImageName : Option UnicodeString)
    (identity : UInt64) (stamp : Stamp) : List UInt8 :=
  let name := copyNameW fullImageName maxImageNameBytes
  let nameBytes := name.bytes.length
  let header := allocRecord (imageLoadedFixed + nameBytes) .imageLoaded pid identity stamp
  let header := orTruncFlags header name.truncated truncImageName
  let nameOffset : UInt16 := .ofNat imageLoadedFixed
  let fixed :=
    [ulong64At ImageLoadedRecord.imageBase imageBase,
     ulongAt ImageLoadedRecord.imageSize imageSize.toUInt32,
     ushortAt ImageLoadedRecord.nameOffset nameOffset,
     ushortAt ImageLoadedRecord.nameBytes (.ofNat nameBytes)]
  let nameCopy := if 0 < nameBytes then [memcpy nameOffset.toNat name.bytes] else []
  writeAll header (fixed ++ nameCopy)

/-! ## Registry callbacks -/

def emitRegistryKeyRecord (type : RecordType) (path : Option UnicodeString) (pid : UInt32)
    (identity : UInt64) (stamp : Stamp) : List UInt8 :=
  let copy := copyNameW path maxKeyPathBytes
  let pathBytes := copy.bytes.length
  let header := allocRecord (registryKeyFixed + pathBytes) type pid identity stamp
  let header := orTruncFlags header copy.truncated truncKeyPath
  let pathOffset : UInt16 := .ofNat registryKeyFixed
  writeAll header
    [ushortAt RegistryKeyRecord.pathOffset pathOffset,
     ushortAt RegistryKeyRecord.pathBytes (.ofNat pathBytes),
     memcpy pathOffset.toNat copy.bytes]

/-- The `data`, `dataLength` pair of a set-value: `dataLength` is a `ULONG`, and a buffer that is
there has that many bytes. -/
structure ValueData where
  data : Option (List UInt8)
  dataLength : UInt32
  data_length : ∀ bytes ∈ data, bytes.length = dataLength.toNat

def ValueData.copiedBytes (value : ValueData) : ℕ := min value.dataLength.toNat maxValueDataBytes

def ValueData.copyTo (value : ValueData) (off : ℕ) : List Write :=
  match value.data with
  | some data => if 0 < value.copiedBytes then [memcpy off (data.take value.copiedBytes)] else []
  | none => []

def emitRegistrySetValue (keyPath valueName : Option UnicodeString) (dataType : UInt32)
    (value : ValueData) (pid : UInt32) (identity : UInt64) (stamp : Stamp) : List UInt8 :=
  let key := copyNameW keyPath maxKeyPathBytes
  let keyBytes := key.bytes.length
  let name := copyNameW valueName maxValueNameBytes
  let valueBytes := name.bytes.length
  let copiedDataBytes := value.copiedBytes
  let header := allocRecord (registrySetValueFixed + keyBytes + valueBytes + copiedDataBytes)
    .registrySetValue pid identity stamp
  let header := orTruncFlags header key.truncated truncKeyPath
  let header := orTruncFlags header name.truncated truncValueName
  let header := orTruncFlags header (maxValueDataBytes < value.dataLength.toNat) truncData
  let keyPathOffset : UInt16 := .ofNat registrySetValueFixed
  let valueNameOffset : UInt16 := .ofNat (keyPathOffset.toNat + keyBytes)
  let fixed :=
    [ushortAt RegistrySetValueRecord.keyPathOffset keyPathOffset,
     ushortAt RegistrySetValueRecord.keyPathBytes (.ofNat keyBytes),
     ushortAt RegistrySetValueRecord.valueNameOffset valueNameOffset,
     ushortAt RegistrySetValueRecord.valueNameBytes (.ofNat valueBytes),
     ulongAt RegistrySetValueRecord.dataType dataType,
     ulongAt RegistrySetValueRecord.dataBytes (.ofNat copiedDataBytes),
     memcpy keyPathOffset.toNat key.bytes,
     memcpy valueNameOffset.toNat name.bytes]
  writeAll header (fixed ++ value.copyTo (valueNameOffset.toNat + valueBytes))

/-! ## File-system callbacks -/

def emitFileRecord (type : RecordType) (path : Option UnicodeString) (pid : UInt32)
    (identity : UInt64) (stamp : Stamp) : List UInt8 :=
  let copy := copyNameW path maxFilePathBytes
  let pathBytes := copy.bytes.length
  let header := allocRecord (fileFixed + pathBytes) type pid identity stamp
  let header := orTruncFlags header copy.truncated truncFilePath
  let pathOffset : UInt16 := .ofNat fileFixed
  writeAll header
    [ushortAt FileRecord.pathOffset pathOffset,
     ushortAt FileRecord.pathBytes (.ofNat pathBytes),
     memcpy pathOffset.toNat copy.bytes]

def emitFileWritten (path : Option UnicodeString) (offset : UInt64) (length : UInt32) (pid : UInt32)
    (identity : UInt64) (stamp : Stamp) : List UInt8 :=
  let copy := copyNameW path maxFilePathBytes
  let pathBytes := copy.bytes.length
  let header := allocRecord (fileWrittenFixed + pathBytes) .fileWritten pid identity stamp
  let header := orTruncFlags header copy.truncated truncFilePath
  let pathOffset : UInt16 := .ofNat fileWrittenFixed
  writeAll header
    [ulong64At FileWrittenRecord.byteOffset offset,
     ulongAt FileWrittenRecord.bytesCount length,
     ushortAt FileWrittenRecord.pathOffset pathOffset,
     ushortAt FileWrittenRecord.pathBytes (.ofNat pathBytes),
     memcpy pathOffset.toNat copy.bytes]

/-- `SecOutfallPreSetInfo` for a rename: the old name, capped, in the completion context. -/
def captureOldPath (name : UnicodeString) : UnicodeString :=
  let bytes := min name.length maxFilePathBytes
  let bytes := bytes / 2 * 2
  ⟨name.bytes.take bytes, lt_of_le_of_lt (List.length_take_le _ _) (by
    have h : maxFilePathBytes = 1024 := rfl
    omega)⟩

/-- `EmitFileRenamed`; `context` is the `OldPath` of the completion context, if there is one. -/
def emitFileRenamed (context newPath : Option UnicodeString) (pid : UInt32) (identity : UInt64)
    (stamp : Stamp) : List UInt8 :=
  let old := copyNameW context maxFilePathBytes
  let oldBytes := old.bytes.length
  let new := copyNameW newPath maxFilePathBytes
  let newBytes := new.bytes.length
  let header := allocRecord (fileRenamedFixed + oldBytes + newBytes) .fileRenamed pid identity stamp
  let header := orTruncFlags header old.truncated truncOldPath
  let header := orTruncFlags header new.truncated truncNewPath
  let oldPathOffset : UInt16 := .ofNat fileRenamedFixed
  let newPathOffset : UInt16 := .ofNat (oldPathOffset.toNat + oldBytes)
  let fixed :=
    [ushortAt FileRenamedRecord.oldPathOffset oldPathOffset,
     ushortAt FileRenamedRecord.oldPathBytes (.ofNat oldBytes),
     ushortAt FileRenamedRecord.newPathOffset newPathOffset,
     ushortAt FileRenamedRecord.newPathBytes (.ofNat newBytes)]
  let oldCopy := if 0 < oldBytes then [memcpy oldPathOffset.toNat old.bytes] else []
  writeAll header (fixed ++ oldCopy ++ [memcpy newPathOffset.toNat new.bytes])

def storedScratchBytes : ℕ := 64 * 2

def emitDropCaptured (path storedName : Option UnicodeString) (method : UInt32) (pid : UInt32)
    (identity : UInt64) (stamp : Stamp) : List UInt8 :=
  let copy := copyNameW path maxFilePathBytes
  let pathBytes := copy.bytes.length
  let stored := copyNameW storedName storedScratchBytes
  let storedBytes := stored.bytes.length
  let header := allocRecord (dropCapturedFixed + pathBytes + storedBytes) .dropCaptured pid identity stamp
  let header := orTruncFlags header copy.truncated truncFilePath
  let header := orTruncFlags header stored.truncated truncNewPath
  let pathOffset : UInt16 := .ofNat dropCapturedFixed
  let storedOffset : UInt16 := .ofNat (pathOffset.toNat + pathBytes)
  writeAll header
    [ushortAt DropCapturedRecord.pathOffset pathOffset,
     ushortAt DropCapturedRecord.pathBytes (.ofNat pathBytes),
     ushortAt DropCapturedRecord.storedOffset storedOffset,
     ushortAt DropCapturedRecord.storedBytes (.ofNat storedBytes),
     ulongAt DropCapturedRecord.method method,
     memcpy pathOffset.toNat copy.bytes,
     memcpy storedOffset.toNat stored.bytes]

/-! ## Promoted records -/

def emitBehaviorCallInternal (pid : UInt32) (createTime : UInt64) (threadId api : UInt32)
    (arg0 arg1 arg2 arg3 : UInt64) (stamp : Stamp) : List UInt8 :=
  writeAll (allocRecord behaviorCallFixed .behaviorCall pid createTime stamp)
    [ulongAt BehaviorCallRecord.threadId threadId,
     ulongAt BehaviorCallRecord.api api,
     ulong64At BehaviorCallRecord.arg0 arg0,
     ulong64At BehaviorCallRecord.arg1 arg1,
     ulong64At BehaviorCallRecord.arg2 arg2,
     ulong64At BehaviorCallRecord.arg3 arg3]

/-- `ProtectionEmitStrippedEvent`. -/
def emitStrippedEvent (openerPid : UInt32) (openerIdentity : UInt64) (protectedPid : UInt32)
    (protectedCreateTime : UInt64) (targetIsThread : UInt8) (originalAccess strippedAccess : UInt64)
    (stamp : Stamp) : List UInt8 :=
  writeAll (allocRecord protectionEventFixed .protectionEvent openerPid openerIdentity stamp)
    [ulongAt ProtectionEventRecord.protectedPid protectedPid,
     ucharAt ProtectionEventRecord.targetIsThread targetIsThread,
     ulong64At ProtectionEventRecord.protectedCreateTime protectedCreateTime,
     ulong64At ProtectionEventRecord.originalDesiredAccess originalAccess,
     ulong64At ProtectionEventRecord.strippedAccess strippedAccess]

/-! ## Emissions -/

/-- A call of an emitting routine with what its caller passes; `identity` is what the identity
table answered. A rename has the name at the pre-operation callback, if that could query it. -/
inductive Emission where
  | processCreated (pid parentProcessId : UInt32) (commandLine imageFileName : Option UnicodeString)
  | processExited (pid : UInt32) (createTime : UInt64)
  | threadCreated (pid threadId : UInt32) (identity : UInt64)
  | threadExited (pid threadId : UInt32) (identity : UInt64)
  | imageLoaded (pid : UInt32) (imageBase imageSize : UInt64) (fullImageName : Option UnicodeString)
      (identity : UInt64)
  | registryKeyCreated (path : Option UnicodeString) (pid : UInt32) (identity : UInt64)
  | registryKeyDeleted (path : Option UnicodeString) (pid : UInt32) (identity : UInt64)
  | registrySetValue (keyPath valueName : Option UnicodeString) (dataType : UInt32)
      (value : ValueData) (pid : UInt32) (identity : UInt64)
  | fileCreated (path : Option UnicodeString) (pid : UInt32) (identity : UInt64)
  | fileWritten (path : Option UnicodeString) (offset : UInt64) (length : UInt32) (pid : UInt32)
      (identity : UInt64)
  | fileCleanedUp (path : Option UnicodeString) (pid : UInt32) (identity : UInt64)
  | fileDeleted (path : Option UnicodeString) (pid : UInt32) (identity : UInt64)
  | fileRenamed (oldName newPath : Option UnicodeString) (pid : UInt32) (identity : UInt64)
  | dropCaptured (path storedName : Option UnicodeString) (method : UInt32) (pid : UInt32)
      (identity : UInt64)
  | behaviorCall (pid : UInt32) (createTime : UInt64) (threadId api : UInt32)
      (arg0 arg1 arg2 arg3 : UInt64)
  | protectionEvent (openerPid : UInt32) (openerIdentity : UInt64) (protectedPid : UInt32)
      (protectedCreateTime : UInt64) (targetIsThread : UInt8) (originalAccess strippedAccess : UInt64)

def Emission.record (stamp : Stamp) : Emission → List UInt8
  | .processCreated pid parent cmd image => emitProcessCreated pid parent cmd image stamp
  | .processExited pid createTime => emitProcessExited pid createTime stamp
  | .threadCreated pid tid identity => emitThread true pid tid identity stamp
  | .threadExited pid tid identity => emitThread false pid tid identity stamp
  | .imageLoaded pid base size name identity => emitImageLoaded pid base size name identity stamp
  | .registryKeyCreated path pid identity =>
    emitRegistryKeyRecord .registryKeyCreated path pid identity stamp
  | .registryKeyDeleted path pid identity =>
    emitRegistryKeyRecord .registryKeyDeleted path pid identity stamp
  | .registrySetValue key name dataType value pid identity =>
    emitRegistrySetValue key name dataType value pid identity stamp
  | .fileCreated path pid identity => emitFileRecord .fileCreated path pid identity stamp
  | .fileWritten path offset length pid identity =>
    emitFileWritten path offset length pid identity stamp
  | .fileCleanedUp path pid identity => emitFileRecord .fileCleanedUp path pid identity stamp
  | .fileDeleted path pid identity => emitFileRecord .fileDeleted path pid identity stamp
  | .fileRenamed oldName newPath pid identity =>
    emitFileRenamed (oldName.map captureOldPath) newPath pid identity stamp
  | .dropCaptured path stored method pid identity =>
    emitDropCaptured path stored method pid identity stamp
  | .behaviorCall pid createTime tid api arg0 arg1 arg2 arg3 =>
    emitBehaviorCallInternal pid createTime tid api arg0 arg1 arg2 arg3 stamp
  | .protectionEvent opener openerId target targetTime isThread original stripped =>
    emitStrippedEvent opener openerId target targetTime isThread original stripped stamp

end SecOutfall.Wire
