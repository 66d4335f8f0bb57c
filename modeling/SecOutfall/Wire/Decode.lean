import SecOutfall.Foundations.Bytes
import SecOutfall.Foundations.Utf16

/-! The consumer of the wire format: `crates/protocol/src/driver_wire.rs`.

Every read is bounds checked and the input is hostile by definition, so the decoder is total:
each way a stream can be malformed is a `DecodeError`. -/
namespace SecOutfall.Wire
open Bytes Utf16
set_option autoImplicit false

/-! ## Record kinds, errors and records -/

inductive RecordKind where
  | processCreated | processExited | threadCreated | threadExited | imageLoaded
  | registryKeyCreated | registryKeyDeleted | registrySetValue
  | fileCreated | fileWritten | fileCleanedUp | fileDeleted | fileRenamed
  | dropCaptured | behaviorCall | protectionEvent
  deriving DecidableEq, Repr

def RecordKind.fromWire (raw : UInt16) : Option RecordKind :=
  match raw.toNat with
  | 1 => some .processCreated
  | 2 => some .processExited
  | 3 => some .threadCreated
  | 4 => some .threadExited
  | 5 => some .imageLoaded
  | 6 => some .registryKeyCreated
  | 7 => some .registryKeyDeleted
  | 8 => some .registrySetValue
  | 9 => some .fileCreated
  | 10 => some .fileWritten
  | 11 => some .fileCleanedUp
  | 12 => some .fileDeleted
  | 13 => some .fileRenamed
  | 14 => some .dropCaptured
  | 15 => some .behaviorCall
  | 16 => some .protectionEvent
  | _ => none

inductive DecodeError where
  | truncated (available needed : ℕ)
  | badMagic (magic : UInt16)
  | badVersion (version : UInt8)
  | badHeaderSize (headerSize : UInt16)
  | badSize (size : UInt32) (available : ℕ)
  | oversize (size : UInt32)
  | unknownType (raw : UInt16)
  | badString (offset bytes recordSize : ℕ)
  deriving DecidableEq, Repr

inductive Payload where
  | processCreated (parentPid : UInt32) (commandLine imageName : Option String)
  | processExited
  | thread (threadId : UInt32)
  | imageLoaded (base : UInt64) (size : UInt32) (name : Option String)
  | registryKeyCreated (path : String)
  | registryKeyDeleted (path : String)
  | registrySetValue (keyPath valueName : String) (dataType : UInt32) (data : List UInt8)
  | fileCreated (path : String)
  | fileWritten (offset : UInt64) (bytes : UInt32) (path : String)
  | fileCleanedUp (path : String)
  | fileDeleted (path : String)
  | fileRenamed (oldPath newPath : String)
  | dropCaptured (path storedName : String) (method : UInt32)
  | behaviorCall (threadId api : UInt32) (arg0 arg1 arg2 arg3 : UInt64)
  | protectionEvent (protectedPid : UInt32) (protectedCreateTime : UInt64) (targetIsThread : Bool)
      (originalAccess strippedAccess : UInt64)
  deriving DecidableEq, Repr

structure Record where
  kind : RecordKind
  pid : UInt32
  sequence : UInt64
  time : UInt64
  processCreateTime : UInt64
  truncFlags : UInt8
  payload : Payload
  deriving DecidableEq, Repr

def headerSizeBytes : ℕ := 48

/-- `MAX_RECORD_BYTES` of the consumer, far above the producer's bound. -/
def decodeMaxRecordBytes : ℕ := 64 * 1024

/-! ## Readers -/

def u8At (buf : List UInt8) (pos : ℕ) : Except DecodeError UInt8 :=
  match buf[pos]? with
  | some b => .ok b
  | none => .error (.truncated buf.length (pos + 1))

def leAt (buf : List UInt8) : ℕ → ℕ → Except DecodeError ℕ
  | 0, _ => .ok 0
  | n + 1, pos => do
    let b ← u8At buf pos
    let rest ← leAt buf n (pos + 1)
    return b.toNat + 256 * rest

def u16At (buf : List UInt8) (pos : ℕ) : Except DecodeError UInt16 := UInt16.ofNat <$> leAt buf 2 pos
def u32At (buf : List UInt8) (pos : ℕ) : Except DecodeError UInt32 := UInt32.ofNat <$> leAt buf 4 pos
def u64At (buf : List UInt8) (pos : ℕ) : Except DecodeError UInt64 := UInt64.ofNat <$> leAt buf 8 pos

def extentAt (buf : List UInt8) (pos : ℕ) : Except DecodeError ℕ := UInt16.toNat <$> u16At buf pos

def getRange (buf : List UInt8) (start stop : ℕ) : Option (List UInt8) :=
  if start ≤ stop ∧ stop ≤ buf.length then some (slice buf start (stop - start)) else none

def strField (buf : List UInt8) (offset bytes : ℕ) : Except DecodeError String :=
  if bytes % 2 ≠ 0 then .error (.badString offset bytes buf.length)
  else if bytes = 0 then .ok ""
  else
    match getRange buf offset (offset + bytes) with
    | some slice => .ok (fromUtf16Lossy (unitsOf slice))
    | none => .error (.badString offset bytes buf.length)

def stringAt (buf : List UInt8) (offset bytes : ℕ) : Except DecodeError String :=
  strField buf offset bytes

def nameAt (buf : List UInt8) (offset bytes : ℕ) : Except DecodeError (Option String) :=
  if bytes = 0 then .ok none else some <$> stringAt buf offset bytes

/-! ## Payloads -/

def minSize : RecordKind → ℕ
  | .processExited => 48
  | .processCreated | .dropCaptured => 60
  | .fileRenamed => 56
  | .threadCreated | .threadExited | .registryKeyCreated | .registryKeyDeleted
  | .fileCreated | .fileCleanedUp | .fileDeleted => 52
  | .imageLoaded | .registrySetValue | .fileWritten => 64
  | .behaviorCall => 88
  | .protectionEvent => 80

def parseRegistrySetValue (record : List UInt8) (size : ℕ) : Except DecodeError Payload := do
  let keyOffset ← extentAt record 48
  let keyBytes ← extentAt record 50
  let valueOffset ← extentAt record 52
  let valueBytes ← extentAt record 54
  let dataType ← u32At record 56
  let dataBytes := (← u32At record 60).toNat
  let keyPath ← stringAt record keyOffset keyBytes
  let valueName ← stringAt record valueOffset valueBytes
  match getRange record (valueOffset + valueBytes) (valueOffset + valueBytes + dataBytes) with
  | some data => return .registrySetValue keyPath valueName dataType data
  | none => .error (.badString (valueOffset + valueBytes) dataBytes size)

def parseDropCaptured (record : List UInt8) : Except DecodeError Payload := do
  let pathOffset ← extentAt record 48
  let pathBytes ← extentAt record 50
  let storedOffset ← extentAt record 52
  let storedBytes ← extentAt record 54
  let method ← u32At record 56
  let path ← stringAt record pathOffset pathBytes
  let storedName ← stringAt record storedOffset storedBytes
  return .dropCaptured path storedName method

def parseProtectionEvent (record : List UInt8) : Except DecodeError Payload := do
  let protectedPid ← u32At record 48
  let targetIsThread := (← u8At record 52) != 0
  let protectedCreateTime ← u64At record 56
  let originalAccess ← u64At record 64
  let strippedAccess ← u64At record 72
  return .protectionEvent protectedPid protectedCreateTime targetIsThread originalAccess strippedAccess

def parseBehaviorCall (record : List UInt8) : Except DecodeError Payload := do
  let threadId ← u32At record 48
  let api ← u32At record 52
  let arg0 ← u64At record 56
  let arg1 ← u64At record 64
  let arg2 ← u64At record 72
  let arg3 ← u64At record 80
  return .behaviorCall threadId api arg0 arg1 arg2 arg3

def pathAt (record : List UInt8) : Except DecodeError String := do
  let pathOffset ← extentAt record 48
  let pathBytes ← extentAt record 50
  stringAt record pathOffset pathBytes

/-- The `match kind` of `payload_of`, after the size check. -/
def payloadFields (kind : RecordKind) (record : List UInt8) (size : ℕ) :
    Except DecodeError Payload :=
  match kind with
  | .processCreated => do
    let parentPid ← u32At record 48
    let cmdOffset ← extentAt record 52
    let cmdBytes ← extentAt record 54
    let imageOffset ← extentAt record 56
    let imageBytes ← extentAt record 58
    let commandLine ← nameAt record cmdOffset cmdBytes
    let imageName ← nameAt record imageOffset imageBytes
    return .processCreated parentPid commandLine imageName
  | .processExited => return .processExited
  | .threadCreated | .threadExited => do
    let threadId ← u32At record 48
    return .thread threadId
  | .imageLoaded => do
    let base ← u64At record 48
    let imgSize ← u32At record 56
    let nameOffset ← extentAt record 60
    let nameBytes ← extentAt record 62
    let name ← nameAt record nameOffset nameBytes
    return .imageLoaded base imgSize name
  | .registryKeyCreated => return .registryKeyCreated (← pathAt record)
  | .registryKeyDeleted => return .registryKeyDeleted (← pathAt record)
  | .registrySetValue => parseRegistrySetValue record size
  | .fileCreated => return .fileCreated (← pathAt record)
  | .fileCleanedUp => return .fileCleanedUp (← pathAt record)
  | .fileDeleted => return .fileDeleted (← pathAt record)
  | .fileWritten => do
    let offset ← u64At record 48
    let bytes ← u32At record 56
    let pathOffset ← extentAt record 60
    let pathBytes ← extentAt record 62
    let path ← stringAt record pathOffset pathBytes
    return .fileWritten offset bytes path
  | .fileRenamed => do
    let oldOffset ← extentAt record 48
    let oldBytes ← extentAt record 50
    let newOffset ← extentAt record 52
    let newBytes ← extentAt record 54
    let oldPath ← stringAt record oldOffset oldBytes
    let newPath ← stringAt record newOffset newBytes
    return .fileRenamed oldPath newPath
  | .dropCaptured => parseDropCaptured record
  | .behaviorCall => parseBehaviorCall record
  | .protectionEvent => parseProtectionEvent record

def payloadOf (kind : RecordKind) (record : List UInt8) (size : ℕ) (sizeRaw : UInt32) :
    Except DecodeError Payload :=
  if size < minSize kind then .error (.badSize sizeRaw record.length)
  else payloadFields kind record size

/-! ## Records -/

def decode (buf : List UInt8) : Except DecodeError Record := do
  if buf.length < headerSizeBytes then throw (.truncated buf.length headerSizeBytes)
  let magic ← u16At buf 0
  if magic ≠ 0x5346 then throw (.badMagic magic)
  let version ← u8At buf 2
  if version ≠ 2 then throw (.badVersion version)
  let truncFlags ← u8At buf 3
  let rawType ← u16At buf 4
  let headerSize ← u16At buf 6
  if headerSize.toNat ≠ headerSizeBytes then throw (.badHeaderSize headerSize)
  let pid ← u32At buf 8
  let sequence ← u64At buf 16
  let time ← u64At buf 24
  let processCreateTime ← u64At buf 32
  let sizeRaw ← u32At buf 40
  let size := sizeRaw.toNat
  if size < headerSizeBytes ∨ size > buf.length then throw (.badSize sizeRaw buf.length)
  if size > decodeMaxRecordBytes then throw (.oversize sizeRaw)
  -- `buf.get(..size)` cannot fail here: `size` was just compared with the length.
  let record := buf.take size
  let kind ← match RecordKind.fromWire rawType with
    | some kind => pure kind
    | none => throw (.unknownType rawType)
  let payload ← payloadOf kind record size sizeRaw
  return ⟨kind, pid, sequence, time, processCreateTime, truncFlags, payload⟩

/-- `record_size`: the declared extent of the record at the front of `buf`. -/
def recordSize (buf : List UInt8) : Except DecodeError ℕ := do
  let sizeRaw ← u32At buf 40
  let size := sizeRaw.toNat
  if size < headerSizeBytes ∨ size > buf.length then throw (.badSize sizeRaw buf.length)
  return size

theorem recordSize_bounds {buf : List UInt8} {size : ℕ} (h : recordSize buf = .ok size) :
    48 ≤ size ∧ size ≤ buf.length := by
  simp only [recordSize, bind, Except.bind] at h
  split at h
  · cases h
  · split at h
    · cases h
    · rename_i hbounds
      cases h
      simp only [headerSizeBytes] at hbounds
      omega

/-- `decode_all`: all records of a drain buffer, or the first error. -/
def decodeAll (buf : List UInt8) : Except DecodeError (List Record) :=
  if buf.isEmpty then .ok []
  else
    match decode buf with
    | .error e => .error e
    | .ok record =>
      match h : recordSize buf with
      | .error e => .error e
      | .ok consumed =>
        have := recordSize_bounds h
        -- `rest.get(consumed..)` cannot fail: `record_size` has compared it with the length
        match decodeAll (buf.drop consumed) with
        | .error e => .error e
        | .ok records => .ok (record :: records)
termination_by buf.length
decreasing_by
  rw [List.length_drop]
  omega

/-! ## Readers over a region that holds a word -/

theorem u8At_of_holds {buf : List UInt8} {pos : ℕ} {b : UInt8} (h : Holds buf pos [b]) :
    u8At buf pos = .ok b := by
  have hb := h.getElem? (i := 0) (by simp)
  simp only [Nat.add_zero, List.getElem?_cons_zero] at hb
  simp [u8At, hb]

theorem leAt_of_holds {buf bs : List UInt8} {pos : ℕ} (h : Holds buf pos bs) :
    leAt buf bs.length pos = .ok (leValue bs) := by
  induction bs generalizing pos with
  | nil => rfl
  | cons b bs ih =>
    have hsplit := h.uncons
    rw [List.length_cons, leAt, u8At_of_holds hsplit.1]
    simp only [bind, Except.bind, ih hsplit.2, leValue]
    rfl

theorem leAt_leBytes {buf : List UInt8} {pos n v : ℕ} (h : Holds buf pos (leBytes n v)) :
    leAt buf n pos = .ok (v % 256 ^ n) := by
  have hle := leAt_of_holds h
  rwa [leBytes_length, leValue_leBytes] at hle

theorem u8At_of_word {buf : List UInt8} {pos : ℕ} {v : UInt8} (h : Holds buf pos (leBytes 1 v.toNat)) :
    u8At buf pos = .ok v :=
  u8At_of_holds (by simpa [leBytes] using h)

theorem u16At_of_word {buf : List UInt8} {pos : ℕ} {v : UInt16}
    (h : Holds buf pos (leBytes 2 v.toNat)) : u16At buf pos = .ok v := by
  simp [u16At, leAt_leBytes h]

theorem u32At_of_word {buf : List UInt8} {pos : ℕ} {v : UInt32}
    (h : Holds buf pos (leBytes 4 v.toNat)) : u32At buf pos = .ok v := by
  simp [u32At, leAt_leBytes h]

theorem u64At_of_word {buf : List UInt8} {pos : ℕ} {v : UInt64}
    (h : Holds buf pos (leBytes 8 v.toNat)) : u64At buf pos = .ok v := by
  simp [u64At, leAt_leBytes h]

theorem extentAt_of_u16 {buf : List UInt8} {pos : ℕ} {v : UInt16}
    (h : Holds buf pos (leBytes 2 v.toNat)) : extentAt buf pos = .ok v.toNat := by
  rw [extentAt, u16At_of_word h]
  rfl

theorem extentAt_of_word {buf : List UInt8} {pos n : ℕ} (hn : n < 2 ^ 16)
    (h : Holds buf pos (leBytes 2 (UInt16.ofNat n).toNat)) : extentAt buf pos = .ok n := by
  have hv : (UInt16.ofNat n).toNat = n := UInt16.toNat_ofNat_of_lt hn
  rw [extentAt_of_u16 h, hv]

theorem getRange_of_holds {buf bs : List UInt8} {pos : ℕ} (h : Holds buf pos bs) :
    getRange buf pos (pos + bs.length) = some bs := by
  have hlen := h.1
  rw [getRange, if_pos ⟨by omega, hlen⟩, Nat.add_sub_cancel_left, h.2]

/-- A region of whole WCHARs reads back as its lossy decoding; an empty one may lie anywhere. -/
theorem stringAt_of_holds {buf bs : List UInt8} {pos : ℕ} (heven : bs.length % 2 = 0)
    (h : 0 < bs.length → Holds buf pos bs) :
    stringAt buf pos bs.length = .ok (fromUtf16Lossy (unitsOf bs)) := by
  rw [stringAt, strField, if_neg (by omega)]
  by_cases h0 : bs.length = 0
  · rw [if_pos h0, List.length_eq_zero_iff.mp h0]
    rfl
  · rw [if_neg h0, getRange_of_holds (h (by omega))]

end SecOutfall.Wire
