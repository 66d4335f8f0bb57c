import Mathlib.Data.List.Forall2
import SecOutfall.Wire.Common
import SecOutfall.Wire.Extents

/-! The console dumper of `driver/dump/dump.cpp`, the other consumer of the wire format.

It trusts the stream as little as the agent does, and every access it makes is checked here: `.error` is an
access outside the record. A line holds the arguments of its `printf`. -/
namespace SecOutfall.Wire
open Bytes Utf16
set_option autoImplicit false

/-! ## Lines -/

inductive Line where
  | processCreated (pid parentPid : UInt32) (id : UInt64) (cmd : List UInt16) (truncated : Bool)
  | processExited (pid : UInt32) (id : UInt64)
  | thread (threadId : UInt32) (created : Bool) (pid : UInt32)
  | image (name : List UInt16) (pid : UInt32) (base : UInt64) (size : UInt32) (truncated : Bool)
  | registryKey (created : Bool) (path : List UInt16) (pid : UInt32) (truncated : Bool)
  | registryWrite (pid : UInt32) (key value : List UInt16) (type size : UInt32) (keyTruncated dataTruncated : Bool)
  | file (verb : String) (path : List UInt16) (pid : UInt32) (truncated : Bool)
  | fileWrite (count : UInt32) (offset : UInt64) (path : List UInt16) (pid : UInt32) (truncated : Bool)
  | fileRenamed (pid : UInt32) (oldPath newPath : List UInt16) (oldTruncated newTruncated : Bool)
  | drop (hardlink : Bool) (path stored : List UInt16) (pid : UInt32) (truncated : Bool)
  | behavior (api threadId : UInt32) (arg0 arg1 arg2 arg3 : UInt64) (pid : UInt32)
  | protection (isThread : Bool) (protectedPid opener : UInt32) (stripped original : UInt64)
  | unknownType (type : UInt16) (size : UInt32)
  deriving DecidableEq, Repr

/-- Why `DisplayData` stopped. A short record has its time on the console already. -/
inductive Ending where
  | done
  | trailing (bytes : ℕ)
  | unknownWire (magic : UInt16) (version : UInt8)
  | headerSize (size : UInt16)
  | recordSize (size : UInt32)
  | short (time : UInt64) (type : RecordType)
  deriving DecidableEq, Repr

/-! ## The dumper -/

def outOfRange : List UInt16 := encodeUtf16 "<out of range>"

def noCommandLine : List UInt16 := encodeUtf16 "<none>"

/-- What `%ws` takes of a `c_str()`. -/
def cStr (text : List UInt16) : List UInt16 := text.takeWhile (· != 0)

def rangeOk (recordSize offset bytes : ℕ) : Bool :=
  bytes % 2 = 0 && headerSizeBytes ≤ offset && offset + bytes ≤ recordSize

def readWstr (record : List UInt8) (offset bytes : ℕ) : Except DecodeError (List UInt16) :=
  if rangeOk record.length offset bytes then
    match getRange record offset (offset + bytes) with
    | some text => .ok (unitsOf text)
    | none => .error (.badString offset bytes record.length)
  else .ok outOfRange

/-- The text whose offset and length stand at `pos`. -/
def wstrAt (record : List UInt8) (pos : ℕ) : Except DecodeError (List UInt16) := do
  let offset ← extentAt record pos
  let bytes ← extentAt record (pos + 2)
  let text ← readWstr record offset bytes
  return cStr text

/-- `TruncSuffix`. -/
def truncSuffix (flags bit : UInt8) : Bool := flags &&& bit != 0

structure Header where
  magic : UInt16
  version : UInt8
  truncFlags : UInt8
  type : UInt16
  headerSize : UInt16
  processId : UInt32
  time : UInt64
  processCreateTime : UInt64
  size : UInt32

def readHeader (buf : List UInt8) : Except DecodeError Header := do
  let magic ← u16At buf RecordHeader.magic
  let version ← u8At buf RecordHeader.version
  let truncFlags ← u8At buf RecordHeader.truncFlags
  let type ← u16At buf RecordHeader.type
  let headerSize ← u16At buf RecordHeader.headerSize
  let processId ← u32At buf RecordHeader.processId
  let time ← u64At buf RecordHeader.time
  let processCreateTime ← u64At buf RecordHeader.processCreateTime
  let size ← u32At buf RecordHeader.size
  return ⟨magic, version, truncFlags, type, headerSize, processId, time, processCreateTime, size⟩

/-- `static_cast<RecordType>`, as far as the `switch` has a case for it. -/
def RecordType.ofCode (raw : UInt16) : Option RecordType :=
  match raw.toNat with
  | 1 => some .processCreated
  | 2 => some .processExited
  | 3 => some .threadCreated
  | 4 => some .threadExited
  | 5 => some .imageLoaded
  | 6 => some .registryKeyCreated
  | 7 => some .registryKeyDeleted
  | 8 => some .registrySetValue
  | 9 => some .fileCreated
  | 10 => some .fileWritten
  | 11 => some .fileCleanedUp
  | 12 => some .fileDeleted
  | 13 => some .fileRenamed
  | 14 => some .dropCaptured
  | 15 => some .behaviorCall
  | 16 => some .protectionEvent
  | _ => none

/-- The extent below which a record counts as short. -/
def RecordType.fixed : RecordType → ℕ
  | .processCreated => processCreatedFixed
  | .processExited => 0
  | .threadCreated | .threadExited => threadFixed
  | .imageLoaded => imageLoadedFixed
  | .registryKeyCreated | .registryKeyDeleted => registryKeyFixed
  | .registrySetValue => registrySetValueFixed
  | .fileCreated | .fileCleanedUp | .fileDeleted => fileFixed
  | .fileWritten => fileWrittenFixed
  | .fileRenamed => fileRenamedFixed
  | .dropCaptured => dropCapturedFixed
  | .behaviorCall => behaviorCallFixed
  | .protectionEvent => protectionEventFixed

def displayFile (verb : String) (header : Header) (record : List UInt8) : Except DecodeError Line := do
  let path ← wstrAt record FileRecord.pathOffset
  return .file verb path header.processId (truncSuffix header.truncFlags truncFilePath)

def displayRegistryKey (created : Bool) (header : Header) (record : List UInt8) : Except DecodeError Line := do
  let path ← wstrAt record RegistryKeyRecord.pathOffset
  return .registryKey created path header.processId (truncSuffix header.truncFlags truncKeyPath)

def displayThread (created : Bool) (header : Header) (record : List UInt8) : Except DecodeError Line := do
  let threadId ← u32At record ThreadRecord.threadId
  return .thread threadId created header.processId

def commandLine (record : List UInt8) (bytes : ℕ) : Except DecodeError (List UInt16) :=
  if 0 < bytes then wstrAt record ProcessCreatedRecord.commandLineOffset else .ok noCommandLine

/-- The `switch`, behind the checks for short records. -/
def displayRecord (header : Header) (record : List UInt8) : RecordType → Except DecodeError Line
  | .processCreated => do
    let parentPid ← u32At record ProcessCreatedRecord.parentProcessId
    let bytes ← extentAt record ProcessCreatedRecord.commandLineBytes
    let cmd ← commandLine record bytes
    return .processCreated header.processId parentPid header.processCreateTime cmd
      (truncSuffix header.truncFlags truncCmdline)
  | .processExited => return .processExited header.processId header.processCreateTime
  | .threadCreated => displayThread true header record
  | .threadExited => displayThread false header record
  | .imageLoaded => do
    let base ← u64At record ImageLoadedRecord.imageBase
    let size ← u32At record ImageLoadedRecord.imageSize
    let name ← wstrAt record ImageLoadedRecord.nameOffset
    return .image name header.processId base size (truncSuffix header.truncFlags truncImageName)
  | .registryKeyCreated => displayRegistryKey true header record
  | .registryKeyDeleted => displayRegistryKey false header record
  | .registrySetValue => do
    let key ← wstrAt record RegistrySetValueRecord.keyPathOffset
    let value ← wstrAt record RegistrySetValueRecord.valueNameOffset
    let type ← u32At record RegistrySetValueRecord.dataType
    let size ← u32At record RegistrySetValueRecord.dataBytes
    return .registryWrite header.processId key value type size (truncSuffix header.truncFlags truncKeyPath)
      (truncSuffix header.truncFlags truncData)
  | .fileCreated => displayFile "created" header record
  | .fileCleanedUp => displayFile "cleaned-up" header record
  | .fileDeleted => displayFile "deleted" header record
  | .fileWritten => do
    let offset ← u64At record FileWrittenRecord.byteOffset
    let count ← u32At record FileWrittenRecord.bytesCount
    let path ← wstrAt record FileWrittenRecord.pathOffset
    return .fileWrite count offset path header.processId (truncSuffix header.truncFlags truncFilePath)
  | .fileRenamed => do
    let oldPath ← wstrAt record FileRenamedRecord.oldPathOffset
    let newPath ← wstrAt record FileRenamedRecord.newPathOffset
    return .fileRenamed header.processId oldPath newPath (truncSuffix header.truncFlags truncOldPath)
      (truncSuffix header.truncFlags truncNewPath)
  | .dropCaptured => do
    let path ← wstrAt record DropCapturedRecord.pathOffset
    let stored ← wstrAt record DropCapturedRecord.storedOffset
    let method ← u32At record DropCapturedRecord.method
    return .drop (method == 0) path stored header.processId (truncSuffix header.truncFlags truncFilePath)
  | .behaviorCall => do
    let api ← u32At record BehaviorCallRecord.api
    let threadId ← u32At record BehaviorCallRecord.threadId
    let arg0 ← u64At record BehaviorCallRecord.arg0
    let arg1 ← u64At record BehaviorCallRecord.arg1
    let arg2 ← u64At record BehaviorCallRecord.arg2
    let arg3 ← u64At record BehaviorCallRecord.arg3
    return .behavior api threadId arg0 arg1 arg2 arg3 header.processId
  | .protectionEvent => do
    let isThread ← u8At record ProtectionEventRecord.targetIsThread
    let protectedPid ← u32At record ProtectionEventRecord.protectedPid
    let stripped ← u64At record ProtectionEventRecord.strippedAccess
    let original ← u64At record ProtectionEventRecord.originalDesiredAccess
    return .protection (isThread != 0) protectedPid header.processId stripped original

/-- A record on its way to the console: a line, or the type it is too short for. -/
def displayOne (header : Header) (record : List UInt8) : Except DecodeError (RecordType ⊕ Line) :=
  match RecordType.ofCode header.type with
  | some type =>
    if record.length < type.fixed then .ok (.inl type) else Sum.inr <$> displayRecord header record type
  | none => .ok (.inr (.unknownType header.type header.size))

def displayData (buf : List UInt8) : Except DecodeError (List (UInt64 × Line) × Ending) :=
  if buf.length < headerSizeBytes then .ok ([], if 0 < buf.length then .trailing buf.length else .done)
  else
    match readHeader buf with
    | .error e => .error e
    | .ok header =>
      if header.magic ≠ wireMagic ∨ header.version ≠ wireVersion then
        .ok ([], .unknownWire header.magic header.version)
      else if header.headerSize.toNat ≠ headerSizeBytes then .ok ([], .headerSize header.headerSize)
      else if _hsize : header.size.toNat < 48 ∨ header.size.toNat > buf.length then .ok ([], .recordSize header.size)
      else
        match displayOne header (buf.take header.size.toNat) with
        | .error e => .error e
        | .ok (.inl type) => .ok ([], .short header.time type)
        | .ok (.inr line) =>
          match displayData (buf.drop header.size.toNat) with
          | .error e => .error e
          | .ok (lines, ending) => .ok ((header.time, line) :: lines, ending)
termination_by buf.length
decreasing_by
  rw [List.length_drop]
  omega

/-! ## Accesses -/

theorem reads_bind {α β : Type} {x : Except DecodeError α} {f : α → Except DecodeError β}
    (hx : ∃ a, x = .ok a) (hf : ∀ a, x = .ok a → ∃ b, f a = .ok b) : ∃ b, (x >>= f) = .ok b := by
  obtain ⟨a, rfl⟩ := hx
  exact hf a rfl

section
variable {buf : List UInt8} {pos : ℕ}

theorem u8At_reads (h : pos < buf.length) : ∃ b, u8At buf pos = .ok b :=
  ⟨buf[pos], by rw [u8At, List.getElem?_eq_getElem h]⟩

theorem leAt_reads {n : ℕ} (h : pos + n ≤ buf.length) : ∃ v, leAt buf n pos = .ok v := by
  have hslice := leAt_of_holds (holds_slice h)
  have hlength : (slice buf pos n).length = n := by
    rw [slice, List.length_take, List.length_drop]
    omega
  rw [hlength] at hslice
  exact ⟨_, hslice⟩

theorem u16At_reads (h : pos + 2 ≤ buf.length) : ∃ v, u16At buf pos = .ok v := by
  obtain ⟨v, hv⟩ := leAt_reads h
  exact ⟨.ofNat v, by rw [u16At, hv]; rfl⟩

theorem u32At_reads (h : pos + 4 ≤ buf.length) : ∃ v, u32At buf pos = .ok v := by
  obtain ⟨v, hv⟩ := leAt_reads h
  exact ⟨.ofNat v, by rw [u32At, hv]; rfl⟩

theorem u64At_reads (h : pos + 8 ≤ buf.length) : ∃ v, u64At buf pos = .ok v := by
  obtain ⟨v, hv⟩ := leAt_reads h
  exact ⟨.ofNat v, by rw [u64At, hv]; rfl⟩

theorem extentAt_reads (h : pos + 2 ≤ buf.length) : ∃ v, extentAt buf pos = .ok v := by
  obtain ⟨v, hv⟩ := u16At_reads h
  exact ⟨v.toNat, by rw [extentAt, hv]; rfl⟩

theorem rangeOk_iff {recordSize offset bytes : ℕ} :
    rangeOk recordSize offset bytes = true ↔ bytes % 2 = 0 ∧ 48 ≤ offset ∧ offset + bytes ≤ recordSize := by
  simp only [rangeOk, Bool.and_eq_true, decide_eq_true_eq, and_assoc]
  rfl

/-- The range check is enough for the read behind it. -/
theorem readWstr_eq (record : List UInt8) (offset bytes : ℕ) :
    readWstr record offset bytes =
      .ok (if rangeOk record.length offset bytes then unitsOf (slice record offset bytes) else outOfRange) := by
  unfold readWstr
  split
  · rename_i hrange
    obtain ⟨-, -, hend⟩ := rangeOk_iff.mp hrange
    rw [getRange, if_pos ⟨Nat.le_add_right _ _, hend⟩, Nat.add_sub_cancel_left]
  · rfl

theorem wstrAt_reads (h : pos + 4 ≤ buf.length) : ∃ text, wstrAt buf pos = .ok text := by
  refine reads_bind (extentAt_reads (by omega)) fun offset _ => ?_
  refine reads_bind (extentAt_reads (by omega)) fun bytes _ => ?_
  exact reads_bind ⟨_, readWstr_eq buf offset bytes⟩ fun text _ => ⟨_, rfl⟩

theorem readHeader_reads (h : 48 ≤ buf.length) : ∃ header, readHeader buf = .ok header := by
  refine reads_bind (u16At_reads (by simpa using by omega)) fun _ _ => ?_
  refine reads_bind (u8At_reads (by simpa using by omega)) fun _ _ => ?_
  refine reads_bind (u8At_reads (by simpa using by omega)) fun _ _ => ?_
  refine reads_bind (u16At_reads (by simpa using by omega)) fun _ _ => ?_
  refine reads_bind (u16At_reads (by simpa using by omega)) fun _ _ => ?_
  refine reads_bind (u32At_reads (by simpa using by omega)) fun _ _ => ?_
  refine reads_bind (u64At_reads (by simpa using by omega)) fun _ _ => ?_
  refine reads_bind (u64At_reads (by simpa using by omega)) fun _ _ => ?_
  exact reads_bind (u32At_reads (by simpa using by omega)) fun _ _ => ⟨_, rfl⟩

/-- A record of its type's extent holds every field of it. -/
theorem displayRecord_reads (header : Header) (type : RecordType) (h : type.fixed ≤ buf.length) :
    ∃ line, displayRecord header buf type = .ok line := by
  cases type with
  | processCreated =>
    replace h : 64 ≤ buf.length := h
    refine reads_bind (u32At_reads (by simpa using by omega)) fun _ _ => ?_
    refine reads_bind (extentAt_reads (by simpa using by omega)) fun bytes _ => ?_
    refine reads_bind ?_ fun _ _ => ⟨_, rfl⟩
    unfold commandLine
    split
    · exact wstrAt_reads (by simpa using by omega)
    · exact ⟨_, rfl⟩
  | processExited => exact ⟨_, rfl⟩
  | threadCreated | threadExited =>
    replace h : 52 ≤ buf.length := h
    exact reads_bind (u32At_reads (by simpa using h)) fun _ _ => ⟨_, rfl⟩
  | imageLoaded =>
    replace h : 64 ≤ buf.length := h
    refine reads_bind (u64At_reads (by simpa using by omega)) fun _ _ => ?_
    refine reads_bind (u32At_reads (by simpa using by omega)) fun _ _ => ?_
    exact reads_bind (wstrAt_reads (by simpa using h)) fun _ _ => ⟨_, rfl⟩
  | registryKeyCreated | registryKeyDeleted | fileCreated | fileCleanedUp | fileDeleted =>
    replace h : 52 ≤ buf.length := h
    exact reads_bind (wstrAt_reads (by simpa using h)) fun _ _ => ⟨_, rfl⟩
  | registrySetValue =>
    replace h : 64 ≤ buf.length := h
    refine reads_bind (wstrAt_reads (by simpa using by omega)) fun _ _ => ?_
    refine reads_bind (wstrAt_reads (by simpa using by omega)) fun _ _ => ?_
    refine reads_bind (u32At_reads (by simpa using by omega)) fun _ _ => ?_
    exact reads_bind (u32At_reads (by simpa using h)) fun _ _ => ⟨_, rfl⟩
  | fileWritten =>
    replace h : 64 ≤ buf.length := h
    refine reads_bind (u64At_reads (by simpa using by omega)) fun _ _ => ?_
    refine reads_bind (u32At_reads (by simpa using by omega)) fun _ _ => ?_
    exact reads_bind (wstrAt_reads (by simpa using h)) fun _ _ => ⟨_, rfl⟩
  | fileRenamed =>
    replace h : 56 ≤ buf.length := h
    refine reads_bind (wstrAt_reads (by simpa using by omega)) fun _ _ => ?_
    exact reads_bind (wstrAt_reads (by simpa using h)) fun _ _ => ⟨_, rfl⟩
  | dropCaptured =>
    replace h : 60 ≤ buf.length := h
    refine reads_bind (wstrAt_reads (by simpa using by omega)) fun _ _ => ?_
    refine reads_bind (wstrAt_reads (by simpa using by omega)) fun _ _ => ?_
    exact reads_bind (u32At_reads (by simpa using h)) fun _ _ => ⟨_, rfl⟩
  | behaviorCall =>
    replace h : 88 ≤ buf.length := h
    refine reads_bind (u32At_reads (by simpa using by omega)) fun _ _ => ?_
    refine reads_bind (u32At_reads (by simpa using by omega)) fun _ _ => ?_
    refine reads_bind (u64At_reads (by simpa using by omega)) fun _ _ => ?_
    refine reads_bind (u64At_reads (by simpa using by omega)) fun _ _ => ?_
    refine reads_bind (u64At_reads (by simpa using by omega)) fun _ _ => ?_
    exact reads_bind (u64At_reads (by simpa using h)) fun _ _ => ⟨_, rfl⟩
  | protectionEvent =>
    replace h : 80 ≤ buf.length := h
    refine reads_bind (u8At_reads (by simpa using by omega)) fun _ _ => ?_
    refine reads_bind (u32At_reads (by simpa using by omega)) fun _ _ => ?_
    refine reads_bind (u64At_reads (by simpa using by omega)) fun _ _ => ?_
    exact reads_bind (u64At_reads (by simpa using by omega)) fun _ _ => ⟨_, rfl⟩

theorem displayOne_reads (header : Header) (record : List UInt8) : ∃ shown, displayOne header record = .ok shown := by
  unfold displayOne
  split
  · split
    · exact ⟨_, rfl⟩
    · rename_i type _ hlong
      obtain ⟨line, hline⟩ := displayRecord_reads header type (Nat.le_of_not_lt hlong)
      exact ⟨.inr line, by rw [hline]; rfl⟩
  · exact ⟨_, rfl⟩

end

/-! ## The two consumers -/

/-- `%ws` of the field at `pos`, against its text for the agent. -/
def Shown (record : List UInt8) (pos : ℕ) (text : String) (shown : List UInt16) : Prop :=
  ∃ offset bytes, extentAt record pos = .ok offset ∧ extentAt record (pos + 2) = .ok bytes ∧
    if rangeOk record.length offset bytes then
      fromUtf16Lossy (unitsOf (slice record offset bytes)) = text ∧ shown = cStr (unitsOf (slice record offset bytes))
    else shown = cStr outOfRange

/-- The line says what the record says. -/
def Spells (bytes : List UInt8) (r : Record) (line : Line) : Prop :=
  match r.payload with
  | .processCreated parent cmd _ => ∃ shown,
    line = .processCreated r.pid parent r.processCreateTime shown (truncSuffix r.truncFlags truncCmdline) ∧
      match cmd with
      | none => shown = noCommandLine
      | some cmd => Shown bytes ProcessCreatedRecord.commandLineOffset cmd shown
  | .processExited => line = .processExited r.pid r.processCreateTime
  | .thread threadId => line = .thread threadId (r.kind == .threadCreated) r.pid
  | .imageLoaded base size name => ∃ shown,
    line = .image shown r.pid base size (truncSuffix r.truncFlags truncImageName) ∧
      Shown bytes ImageLoadedRecord.nameOffset (name.getD "") shown
  | .registryKeyCreated path => ∃ shown,
    line = .registryKey true shown r.pid (truncSuffix r.truncFlags truncKeyPath) ∧
      Shown bytes RegistryKeyRecord.pathOffset path shown
  | .registryKeyDeleted path => ∃ shown,
    line = .registryKey false shown r.pid (truncSuffix r.truncFlags truncKeyPath) ∧
      Shown bytes RegistryKeyRecord.pathOffset path shown
  | .registrySetValue keyPath valueName dataType data => ∃ key value size,
    line = .registryWrite r.pid key value dataType size (truncSuffix r.truncFlags truncKeyPath)
      (truncSuffix r.truncFlags truncData) ∧ size.toNat = data.length ∧
      Shown bytes RegistrySetValueRecord.keyPathOffset keyPath key ∧
      Shown bytes RegistrySetValueRecord.valueNameOffset valueName value
  | .fileCreated path => ∃ shown,
    line = .file "created" shown r.pid (truncSuffix r.truncFlags truncFilePath) ∧
      Shown bytes FileRecord.pathOffset path shown
  | .fileCleanedUp path => ∃ shown,
    line = .file "cleaned-up" shown r.pid (truncSuffix r.truncFlags truncFilePath) ∧
      Shown bytes FileRecord.pathOffset path shown
  | .fileDeleted path => ∃ shown,
    line = .file "deleted" shown r.pid (truncSuffix r.truncFlags truncFilePath) ∧
      Shown bytes FileRecord.pathOffset path shown
  | .fileWritten offset count path => ∃ shown,
    line = .fileWrite count offset shown r.pid (truncSuffix r.truncFlags truncFilePath) ∧
      Shown bytes FileWrittenRecord.pathOffset path shown
  | .fileRenamed oldPath newPath => ∃ old new,
    line = .fileRenamed r.pid old new (truncSuffix r.truncFlags truncOldPath)
      (truncSuffix r.truncFlags truncNewPath) ∧
      Shown bytes FileRenamedRecord.oldPathOffset oldPath old ∧
      Shown bytes FileRenamedRecord.newPathOffset newPath new
  | .dropCaptured path storedName method => ∃ shown stored,
    line = .drop (method == 0) shown stored r.pid (truncSuffix r.truncFlags truncFilePath) ∧
      Shown bytes DropCapturedRecord.pathOffset path shown ∧
      Shown bytes DropCapturedRecord.storedOffset storedName stored
  | .behaviorCall threadId api arg0 arg1 arg2 arg3 => line = .behavior api threadId arg0 arg1 arg2 arg3 r.pid
  | .protectionEvent protectedPid _ targetIsThread originalAccess strippedAccess =>
    line = .protection targetIsThread protectedPid r.pid strippedAccess originalAccess

/-- The console beside the agent's records: a line for each, up to a creation that only the dumper finds short. -/
inductive Console : List (List UInt8) → List Record → List (UInt64 × Line) → Ending → Prop where
  | done : Console [] [] [] .done
  | line {bytes : List UInt8} {r : Record} {line : Line} {chunks : List (List UInt8)} {records : List Record}
      {lines : List (UInt64 × Line)} {ending : Ending} (decoded : decode bytes = .ok r)
      (spells : Spells bytes r line) (rest : Console chunks records lines ending) :
      Console (bytes :: chunks) (r :: records) ((r.time, line) :: lines) ending
  | short {bytes : List UInt8} {r : Record} (chunks : List (List UInt8)) (records : List Record)
      (decoded : decode bytes = .ok r) (kind : r.kind = .processCreated) (short : bytes.length < 64) :
      Console (bytes :: chunks) (r :: records) [] (.short r.time .processCreated)

section
variable {record : List UInt8} {pos offset bytes : ℕ} {text : String}

theorem getRange_eq {start stop : ℕ} {found : List UInt8} (h : getRange record start stop = some found) :
    found = slice record start (stop - start) ∧ start ≤ stop ∧ stop ≤ record.length := by
  unfold getRange at h
  split at h
  · rename_i hrange
    exact ⟨(Option.some.inj h).symm, hrange⟩
  · cases h

/-- A text the agent accepts is whole code units of the record. -/
theorem stringAt_units (h : stringAt record offset bytes = .ok text) :
    bytes % 2 = 0 ∧ fromUtf16Lossy (unitsOf (slice record offset bytes)) = text := by
  unfold stringAt strField at h
  split at h
  · cases h
  · rename_i heven
    split at h
    · rename_i hzero
      subst hzero
      exact ⟨rfl, Except.ok.inj h⟩
    · split at h
      · rename_i found hfound
        obtain ⟨rfl, -, -⟩ := getRange_eq hfound
        rw [Nat.add_sub_cancel_left] at h
        exact ⟨by omega, Except.ok.inj h⟩
      · cases h

theorem wstrAt_shown (hoffset : extentAt record pos = .ok offset) (hbytes : extentAt record (pos + 2) = .ok bytes)
    (h : stringAt record offset bytes = .ok text) :
    ∃ shown, wstrAt record pos = .ok shown ∧ Shown record pos text shown := by
  obtain ⟨-, htext⟩ := stringAt_units h
  refine ⟨cStr (if rangeOk record.length offset bytes then unitsOf (slice record offset bytes) else outOfRange), ?_,
    offset, bytes, hoffset, hbytes, ?_⟩
  · simp only [wstrAt, hoffset, hbytes, readWstr_eq, bind, Except.bind]
    rfl
  · split
    · exact ⟨htext, rfl⟩
    · rfl

/-- The record has the header's values. -/
structure Heads (header : Header) (r : Record) : Prop where
  pid : header.processId = r.pid
  time : header.time = r.time
  createTime : header.processCreateTime = r.processCreateTime
  truncFlags : header.truncFlags = r.truncFlags

def RecordType.kind : RecordType → RecordKind
  | .processCreated => .processCreated
  | .processExited => .processExited
  | .threadCreated => .threadCreated
  | .threadExited => .threadExited
  | .imageLoaded => .imageLoaded
  | .registryKeyCreated => .registryKeyCreated
  | .registryKeyDeleted => .registryKeyDeleted
  | .registrySetValue => .registrySetValue
  | .fileCreated => .fileCreated
  | .fileWritten => .fileWritten
  | .fileCleanedUp => .fileCleanedUp
  | .fileDeleted => .fileDeleted
  | .fileRenamed => .fileRenamed
  | .dropCaptured => .dropCaptured
  | .behaviorCall => .behaviorCall
  | .protectionEvent => .protectionEvent

theorem fromWire_ofCode (raw : UInt16) : RecordKind.fromWire raw = (RecordType.ofCode raw).map RecordType.kind := by
  unfold RecordKind.fromWire RecordType.ofCode
  generalize raw.toNat = code
  split
  all_goals first | rfl | simp_all

/-- Only a creation may be long enough for the agent and too short for the dumper. -/
theorem fixed_le_minSize {type : RecordType} (h : type ≠ .processCreated) : type.fixed ≤ minSize type.kind := by
  cases type <;> first | exact absurd rfl h | decide

theorem pathAt_shown {record : List UInt8} {text : String} (h : pathAt record = .ok text) :
    ∃ shown, wstrAt record 48 = .ok shown ∧ Shown record 48 text shown := by
  simp only [pathAt, bind_ok] at h
  obtain ⟨offset, hoffset, bytes, hbytes, htext⟩ := h
  exact wstrAt_shown hoffset hbytes htext

theorem displayRecord_spells {record : List UInt8} {header : Header} {r : Record} (hheads : Heads header r)
    (type : RecordType) (hkind : r.kind = type.kind)
    (h : payloadFields r.kind record record.length = .ok r.payload) :
    ∃ line, displayRecord header record type = .ok line ∧ Spells record r line := by
  obtain ⟨kind, pid, sequence, time, createTime, truncFlags, payload⟩ := r
  obtain ⟨hpid, htime, hcreate, hflags⟩ := hheads
  dsimp only at hkind h hpid htime hcreate hflags
  subst hkind
  cases type with
  | processCreated =>
    simp only [RecordType.kind, payloadFields, bind_ok, pure_ok] at h
    obtain ⟨parent, hparent, offset, hoffset, bytes, hbytes, _, _, _, _, cmd, hcmd, image, -, rfl⟩ := h
    unfold nameAt at hcmd
    split at hcmd
    · rename_i hzero
      obtain rfl := Except.ok.inj hcmd
      refine ⟨_, ?_, noCommandLine, rfl, rfl⟩
      simp [displayRecord, hparent, hbytes, commandLine, hzero, hpid, hcreate, hflags, bind, Except.bind, pure,
        Except.pure]
    · rename_i hsome
      obtain ⟨text, htext, rfl⟩ := map_ok.mp hcmd
      obtain ⟨shown, hread, hshown⟩ := wstrAt_shown hoffset hbytes htext
      refine ⟨_, ?_, shown, rfl, hshown⟩
      simp [displayRecord, hparent, hbytes, commandLine, Nat.pos_of_ne_zero hsome, hread, hpid, hcreate, hflags, bind,
        Except.bind, pure, Except.pure]
  | processExited =>
    obtain rfl := pure_ok.mp h
    exact ⟨_, by simp [displayRecord, hpid, hcreate, pure, Except.pure], rfl⟩
  | threadCreated | threadExited =>
    simp only [RecordType.kind, payloadFields, bind_ok, pure_ok] at h
    obtain ⟨threadId, hthread, rfl⟩ := h
    refine ⟨_, ?_, rfl⟩
    simp [displayRecord, displayThread, RecordType.kind, hthread, hpid, bind, Except.bind, pure, Except.pure]
  | imageLoaded =>
    simp only [RecordType.kind, payloadFields, bind_ok, pure_ok] at h
    obtain ⟨base, hbase, size, hsize, offset, hoffset, bytes, hbytes, name, hname, rfl⟩ := h
    have htext : stringAt record offset bytes = .ok (name.getD "") := by
      unfold nameAt at hname
      split at hname
      · rename_i hzero
        obtain rfl := Except.ok.inj hname
        rw [hzero]
        rfl
      · obtain ⟨text, htext, rfl⟩ := map_ok.mp hname
        exact htext
    obtain ⟨shown, hread, hshown⟩ := wstrAt_shown hoffset hbytes htext
    refine ⟨_, ?_, shown, rfl, hshown⟩
    simp [displayRecord, hbase, hsize, hread, hpid, hflags, bind, Except.bind, pure, Except.pure]
  | registryKeyCreated | registryKeyDeleted =>
    simp only [RecordType.kind, payloadFields, bind_ok, pure_ok] at h
    obtain ⟨path, hpath, rfl⟩ := h
    obtain ⟨shown, hread, hshown⟩ := pathAt_shown hpath
    refine ⟨_, ?_, shown, rfl, hshown⟩
    simp [displayRecord, displayRegistryKey, hread, hpid, hflags, bind, Except.bind, pure, Except.pure]
  | fileCreated | fileCleanedUp | fileDeleted =>
    simp only [RecordType.kind, payloadFields, bind_ok, pure_ok] at h
    obtain ⟨path, hpath, rfl⟩ := h
    obtain ⟨shown, hread, hshown⟩ := pathAt_shown hpath
    refine ⟨_, ?_, shown, rfl, hshown⟩
    simp [displayRecord, displayFile, hread, hpid, hflags, bind, Except.bind, pure, Except.pure]
  | registrySetValue =>
    simp only [RecordType.kind, payloadFields, parseRegistrySetValue, bind_ok] at h
    obtain ⟨_, hkeyOffset, _, hkeyBytes, valueOffset, hvalueOffset, valueBytes, hvalueBytes, dataType, htype, size,
      hsize, keyPath, hkey, valueName, hvalue, hdata⟩ := h
    split at hdata
    · rename_i data hfound
      obtain rfl := pure_ok.mp hdata
      obtain ⟨key, hkeyRead, hkeyShown⟩ := wstrAt_shown hkeyOffset hkeyBytes hkey
      obtain ⟨value, hvalueRead, hvalueShown⟩ := wstrAt_shown hvalueOffset hvalueBytes hvalue
      obtain ⟨rfl, -, hend⟩ := getRange_eq hfound
      refine ⟨_, ?_, key, value, size, rfl, ?_, hkeyShown, hvalueShown⟩
      · simp [displayRecord, hkeyRead, hvalueRead, htype, hsize, hpid, hflags, bind, Except.bind, pure, Except.pure]
      · rw [slice, List.length_take, List.length_drop]
        omega
    · cases hdata
  | fileWritten =>
    simp only [RecordType.kind, payloadFields, bind_ok, pure_ok] at h
    obtain ⟨offset, hoffset, count, hcount, _, hpathOffset, _, hpathBytes, path, hpath, rfl⟩ := h
    obtain ⟨shown, hread, hshown⟩ := wstrAt_shown hpathOffset hpathBytes hpath
    refine ⟨_, ?_, shown, rfl, hshown⟩
    simp [displayRecord, hoffset, hcount, hread, hpid, hflags, bind, Except.bind, pure, Except.pure]
  | fileRenamed =>
    simp only [RecordType.kind, payloadFields, bind_ok, pure_ok] at h
    obtain ⟨_, holdOffset, _, holdBytes, _, hnewOffset, _, hnewBytes, oldPath, hold, newPath, hnew, rfl⟩ := h
    obtain ⟨old, holdRead, holdShown⟩ := wstrAt_shown holdOffset holdBytes hold
    obtain ⟨new, hnewRead, hnewShown⟩ := wstrAt_shown hnewOffset hnewBytes hnew
    refine ⟨_, ?_, old, new, rfl, holdShown, hnewShown⟩
    simp [displayRecord, holdRead, hnewRead, hpid, hflags, bind, Except.bind, pure, Except.pure]
  | dropCaptured =>
    simp only [RecordType.kind, payloadFields, parseDropCaptured, bind_ok, pure_ok] at h
    obtain ⟨_, hpathOffset, _, hpathBytes, _, hstoredOffset, _, hstoredBytes, method, hmethod, path, hpath,
      storedName, hname, rfl⟩ := h
    obtain ⟨shown, hread, hshown⟩ := wstrAt_shown hpathOffset hpathBytes hpath
    obtain ⟨stored, hstoredRead, hstoredShown⟩ := wstrAt_shown hstoredOffset hstoredBytes hname
    refine ⟨_, ?_, shown, stored, rfl, hshown, hstoredShown⟩
    simp [displayRecord, hread, hstoredRead, hmethod, hpid, hflags, bind, Except.bind, pure, Except.pure]
  | behaviorCall =>
    simp only [RecordType.kind, payloadFields, parseBehaviorCall, bind_ok, pure_ok] at h
    obtain ⟨threadId, hthread, api, hapi, arg0, harg0, arg1, harg1, arg2, harg2, arg3, harg3, rfl⟩ := h
    refine ⟨_, ?_, rfl⟩
    simp [displayRecord, hthread, hapi, harg0, harg1, harg2, harg3, hpid, bind, Except.bind, pure, Except.pure]
  | protectionEvent =>
    simp only [RecordType.kind, payloadFields, parseProtectionEvent, bind_ok, pure_ok] at h
    obtain ⟨protectedPid, htarget, isThread, hthread, _, _, original, horiginal, stripped, hstripped, rfl⟩ := h
    refine ⟨_, ?_, rfl⟩
    simp [displayRecord, htarget, hthread, horiginal, hstripped, hpid, bind, Except.bind, pure, Except.pure]

/-- What the agent checked of the header of a record it decodes. -/
theorem decode_header {buf : List UInt8} {r : Record} (h : decode buf = .ok r) :
    ∃ header, readHeader buf = .ok header ∧ header.magic = wireMagic ∧ header.version = wireVersion ∧
      header.headerSize.toNat = headerSizeBytes ∧ 48 ≤ header.size.toNat ∧ header.size.toNat ≤ buf.length ∧
      RecordKind.fromWire header.type = some r.kind ∧ Heads header r ∧
      payloadOf r.kind (buf.take header.size.toNat) header.size.toNat header.size = .ok r.payload := by
  simp only [decode, bind_ok, guard_ok] at h
  obtain ⟨-, magic, hmagic, hm, version, hversion, hv, flags, hflags, type, htype, headerSize, hheader, hh, pid, hpid,
    sequence, hsequence, time, htime, createTime, hcreate, size, hsize, hsized, -, hkind⟩ := h
  simp only [headerSizeBytes, not_or, not_lt] at hsized
  refine ⟨⟨magic, version, flags, type, headerSize, pid, time, createTime, size⟩, ?_, not_not.mp hm,
    not_not.mp hv, not_not.mp hh, hsized.1, hsized.2, ?_⟩
  · simp [readHeader, hmagic, hversion, hflags, htype, hheader, hpid, htime, hcreate, hsize, bind, Except.bind, pure,
      Except.pure]
  · split at hkind
    · rename_i hfound
      simp only [bind_ok, pure_ok] at hkind
      obtain ⟨kind, rfl, payload, hpayload, rfl⟩ := hkind
      exact ⟨hfound, ⟨rfl, rfl, rfl, rfl⟩, hpayload⟩
    · simp only [bind_ok] at hkind
      obtain ⟨kind, hthrow, -⟩ := hkind
      cases hthrow

/-- The dumper on a record the agent decodes. -/
theorem displayOne_decoded {header : Header} {record : List UInt8} {r : Record} (hheads : Heads header r)
    (hkind : RecordKind.fromWire header.type = some r.kind)
    (hpayload : payloadOf r.kind record record.length header.size = .ok r.payload) :
    (∃ line, displayOne header record = .ok (.inr line) ∧ Spells record r line) ∨
      displayOne header record = .ok (.inl .processCreated) ∧ r.kind = .processCreated ∧ record.length < 64 := by
  rw [fromWire_ofCode, Option.map_eq_some_iff] at hkind
  obtain ⟨type, htype, hkind⟩ := hkind
  unfold payloadOf at hpayload
  split at hpayload
  · cases hpayload
  · rename_i hmin
    rw [displayOne, htype]
    dsimp only
    by_cases hshort : record.length < type.fixed
    · right
      have hcreated : type = .processCreated := by
        by_contra hother
        have hfixed := fixed_le_minSize hother
        rw [hkind] at hfixed
        omega
      subst hcreated
      exact ⟨if_pos hshort, hkind.symm, hshort⟩
    · left
      obtain ⟨line, hline, hspells⟩ := displayRecord_spells hheads type hkind.symm hpayload
      exact ⟨line, by rw [if_neg hshort, hline]; rfl, hspells⟩

/-- No buffer makes the dumper read outside a record. -/
theorem displayData_reads (buf : List UInt8) : ∃ lines ending, displayData buf = .ok (lines, ending) := by
  unfold displayData
  split
  · exact ⟨_, _, rfl⟩
  · rename_i hlong
    obtain ⟨header, hheader⟩ := readHeader_reads (Nat.le_of_not_lt hlong)
    rw [hheader]
    dsimp only
    split
    · exact ⟨_, _, rfl⟩
    · split
      · exact ⟨_, _, rfl⟩
      · split
        · exact ⟨_, _, rfl⟩
        · obtain ⟨shown, hshown⟩ := displayOne_reads header (buf.take header.size.toNat)
          rw [hshown]
          cases shown with
          | inl type => exact ⟨_, _, rfl⟩
          | inr line =>
            obtain ⟨lines, ending, hrest⟩ := displayData_reads (buf.drop header.size.toNat)
            dsimp only
            rw [hrest]
            exact ⟨_, _, rfl⟩
termination_by buf.length
decreasing_by
  rw [List.length_drop]
  omega

/-- A header that passes the checks hands its record on. -/
theorem displayData_eq {buf : List UInt8} {header : Header} (hheader : readHeader buf = .ok header)
    (hmagic : header.magic = wireMagic) (hversion : header.version = wireVersion)
    (hsize : header.headerSize.toNat = headerSizeBytes) (hlow : 48 ≤ header.size.toNat)
    (hhigh : header.size.toNat ≤ buf.length) :
    displayData buf =
      match displayOne header (buf.take header.size.toNat) with
      | .error e => .error e
      | .ok (.inl type) => .ok ([], .short header.time type)
      | .ok (.inr line) =>
        match displayData (buf.drop header.size.toNat) with
        | .error e => .error e
        | .ok (lines, ending) => .ok ((header.time, line) :: lines, ending) := by
  have hlong : ¬ buf.length < headerSizeBytes := by
    simp only [headerSizeBytes]
    omega
  have hsized : ¬ (header.size.toNat < 48 ∨ header.size.toNat > buf.length) := by omega
  rw [displayData, if_neg hlong, hheader]
  simp only [hmagic, hversion, hsize, ne_eq, not_true_eq_false, or_self, if_false, dif_neg hsized]

/-- The front of a buffer the agent decodes: a line for its first record, or a creation found short. -/
theorem displayData_decoded {buf : List UInt8} {r : Record} (h : decode buf = .ok r) :
    ∃ size, recordSize buf = .ok size ∧
      ((∃ line, Spells (buf.take size) r line ∧ ∀ lines ending,
          displayData (buf.drop size) = .ok (lines, ending) → displayData buf = .ok ((r.time, line) :: lines, ending)) ∨
        (displayData buf = .ok ([], .short r.time .processCreated) ∧ r.kind = .processCreated ∧ size < 64)) := by
  obtain ⟨header, hheader, hmagic, hversion, hsize, hlow, hhigh, hkind, hheads, hpayload⟩ := decode_header h
  have hlength : (buf.take header.size.toNat).length = header.size.toNat := by
    rw [List.length_take, Nat.min_eq_left hhigh]
  have hread : u32At buf 40 = .ok header.size := by
    simp only [readHeader, bind_ok, pure_ok] at hheader
    obtain ⟨_, _, _, _, _, _, _, _, _, _, _, _, _, _, _, _, size, hread, rfl⟩ := hheader
    exact hread
  have hpayload' : payloadOf r.kind (buf.take header.size.toNat) (buf.take header.size.toNat).length header.size =
      .ok r.payload := by rwa [hlength]
  have hdisplay := displayData_eq hheader hmagic hversion hsize hlow hhigh
  refine ⟨header.size.toNat, recordSize_ok.mpr ⟨header.size, hread, rfl, hlow, hhigh⟩, ?_⟩
  obtain ⟨line, hline, hspells⟩ | ⟨hshort, hcreated, hsmall⟩ := displayOne_decoded hheads hkind hpayload'
  · refine .inl ⟨line, hspells, fun lines ending hrest => ?_⟩
    rw [hdisplay, hline]
    dsimp only
    rw [hrest, hheads.time]
  · refine .inr ⟨?_, hcreated, hlength ▸ hsmall⟩
    rw [hdisplay, hshort, hheads.time]

/-- A record as the agent decodes it from its own bytes. -/
theorem decode_take {buf : List UInt8} {r : Record} {size : ℕ} (h : decode buf = .ok r)
    (hsize : recordSize buf = .ok size) : decode (buf.take size) = .ok r := by
  obtain ⟨sizeRaw, hread, hsizeRaw, hlow, hhigh⟩ := recordSize_ok.mp hsize
  have hlength : (buf.take size).length = size := by rw [List.length_take, Nat.min_eq_left hhigh]
  have hsplit : buf.take size ++ buf.drop size = buf := List.take_append_drop size buf
  have hfront : recordSize (buf.take size) = .ok size := by
    refine recordSize_ok.mpr ⟨sizeRaw, ?_, hsizeRaw, hlow, hlength.ge⟩
    rw [← u32At_append (buf.drop size) (by omega), hsplit, hread]
  rw [← decode_append (buf.drop size) hfront, hsplit, h]

/-- No buffer makes the dumper read outside a record, and on every buffer the agent decodes, the console shows
the agent's records one by one: each line spells its record, a text that overlaps the header or lies outside as
such, until a creation of less than 64 bytes, which only the dumper finds short. -/
theorem dump_agrees (buf : List UInt8) :
    ∃ lines ending, displayData buf = .ok (lines, ending) ∧
      ∀ records, decodeAll buf = .ok records →
        ∃ chunks, chunks.flatten = buf ∧ Console chunks records lines ending := by
  obtain ⟨lines, ending, hdisplay⟩ := displayData_reads buf
  refine ⟨lines, ending, hdisplay, fun records hrecords => ?_⟩
  rw [decodeAll] at hrecords
  split at hrecords
  · rename_i hempty
    obtain rfl := List.isEmpty_iff.mp hempty
    obtain rfl := Except.ok.inj hrecords
    have hnone : displayData [] = .ok ([], .done) := by
      rw [displayData]
      rfl
    obtain ⟨rfl, rfl⟩ := Prod.mk.inj (Except.ok.inj (hdisplay.symm.trans hnone))
    exact ⟨[], rfl, .done⟩
  · split at hrecords
    · cases hrecords
    · rename_i r hdecode
      obtain ⟨size, hsize, hfront⟩ := displayData_decoded hdecode
      have hbounds := recordSize_bounds hsize
      split at hrecords
      · cases hrecords
      · rename_i consumed hconsumed
        obtain rfl := Except.ok.inj (hsize.symm.trans hconsumed)
        split at hrecords
        · cases hrecords
        · rename_i rest hrest
          obtain rfl := Except.ok.inj hrecords
          have hown := decode_take hdecode hsize
          obtain ⟨lines', ending', hdisplay', hconsole⟩ := dump_agrees (buf.drop size)
          obtain ⟨chunks, hchunks, hshown⟩ := hconsole rest hrest
          have hflatten : (buf.take size :: chunks).flatten = buf := by
            rw [List.flatten_cons, hchunks, List.take_append_drop]
          obtain ⟨line, hspells, hline⟩ | ⟨hshort, hcreated, hsmall⟩ := hfront
          · obtain ⟨rfl, rfl⟩ := Prod.mk.inj (Except.ok.inj (hdisplay.symm.trans (hline _ _ hdisplay')))
            exact ⟨_, hflatten, .line hown hspells hshown⟩
          · obtain ⟨rfl, rfl⟩ := Prod.mk.inj (Except.ok.inj (hdisplay.symm.trans hshort))
            refine ⟨_, hflatten, .short chunks rest hown hcreated ?_⟩
            rw [List.length_take]
            omega
termination_by buf.length
decreasing_by
  rw [List.length_drop]
  omega

end

end SecOutfall.Wire
