import SecOutfall.Wire.Records
import SecOutfall.Wire.Decode

/-! Producer and consumer of the wire format agree: what the driver emits, the agent decodes.

`Emission.expected` says what a record means in terms of the routine's arguments only: the first
`cap / 2` code units of each source string, the first 128 bytes of the value data, the numbers as
they were passed. -/
namespace SecOutfall.Wire
open Bytes Utf16
set_option autoImplicit false

/-! ## What a record means -/

/-- The first code units of a source string, as many as fit in `cap` bytes. -/
def cappedUnits (cap : ℕ) : Option UnicodeString → List UInt16
  | none => []
  | some s => (unitsOf s.bytes).take (cap / 2)

def cappedText (cap : ℕ) (src : Option UnicodeString) : String := fromUtf16Lossy (cappedUnits cap src)

def cappedName (cap : ℕ) (src : Option UnicodeString) : Option String :=
  if cappedUnits cap src = [] then none else some (cappedText cap src)

/-- Some byte of the source is not part of `cappedUnits`. -/
def isCut (cap : ℕ) : Option UnicodeString → Bool
  | none => false
  | some s => 2 * (cappedUnits cap (some s)).length < s.length

/-- The first 128 bytes of the value data. A buffer that is not there reads as the zeroed pool. -/
def ValueData.carried (value : ValueData) : List UInt8 :=
  (value.data.getD (List.replicate value.dataLength.toNat 0)).take maxValueDataBytes

def flagIf (cond : Bool) (flag : UInt8) : UInt8 := if cond then flag else 0

def Emission.expected (stamp : Stamp) : Emission → Record
  | .processCreated pid parent cmd image =>
    ⟨.processCreated, pid, stamp.sequence, stamp.time, 0,
      truncNone ||| flagIf (isCut maxCommandLineBytes cmd) truncCmdline |||
        flagIf (isCut maxImageNameBytes image) truncImageName,
      .processCreated parent (cappedName maxCommandLineBytes cmd) (cappedName maxImageNameBytes image)⟩
  | .processExited pid createTime =>
    ⟨.processExited, pid, stamp.sequence, stamp.time, createTime, truncNone, .processExited⟩
  | .threadCreated pid tid identity =>
    ⟨.threadCreated, pid, stamp.sequence, stamp.time, identity, truncNone, .thread tid⟩
  | .threadExited pid tid identity =>
    ⟨.threadExited, pid, stamp.sequence, stamp.time, identity, truncNone, .thread tid⟩
  | .imageLoaded pid base size name identity =>
    ⟨.imageLoaded, pid, stamp.sequence, stamp.time, identity,
      truncNone ||| flagIf (isCut maxImageNameBytes name) truncImageName,
      .imageLoaded base size.toUInt32 (cappedName maxImageNameBytes name)⟩
  | .registryKeyCreated path pid identity =>
    ⟨.registryKeyCreated, pid, stamp.sequence, stamp.time, identity,
      truncNone ||| flagIf (isCut maxKeyPathBytes path) truncKeyPath,
      .registryKeyCreated (cappedText maxKeyPathBytes path)⟩
  | .registryKeyDeleted path pid identity =>
    ⟨.registryKeyDeleted, pid, stamp.sequence, stamp.time, identity,
      truncNone ||| flagIf (isCut maxKeyPathBytes path) truncKeyPath,
      .registryKeyDeleted (cappedText maxKeyPathBytes path)⟩
  | .registrySetValue key name dataType value pid identity =>
    ⟨.registrySetValue, pid, stamp.sequence, stamp.time, identity,
      truncNone ||| flagIf (isCut maxKeyPathBytes key) truncKeyPath |||
        flagIf (isCut maxValueNameBytes name) truncValueName |||
        flagIf (maxValueDataBytes < value.dataLength.toNat) truncData,
      .registrySetValue (cappedText maxKeyPathBytes key) (cappedText maxValueNameBytes name) dataType
        value.carried⟩
  | .fileCreated path pid identity =>
    ⟨.fileCreated, pid, stamp.sequence, stamp.time, identity,
      truncNone ||| flagIf (isCut maxFilePathBytes path) truncFilePath, .fileCreated (cappedText maxFilePathBytes path)⟩
  | .fileWritten path offset length pid identity =>
    ⟨.fileWritten, pid, stamp.sequence, stamp.time, identity,
      truncNone ||| flagIf (isCut maxFilePathBytes path) truncFilePath,
      .fileWritten offset length (cappedText maxFilePathBytes path)⟩
  | .fileCleanedUp path pid identity =>
    ⟨.fileCleanedUp, pid, stamp.sequence, stamp.time, identity,
      truncNone ||| flagIf (isCut maxFilePathBytes path) truncFilePath, .fileCleanedUp (cappedText maxFilePathBytes path)⟩
  | .fileDeleted path pid identity =>
    ⟨.fileDeleted, pid, stamp.sequence, stamp.time, identity,
      truncNone ||| flagIf (isCut maxFilePathBytes path) truncFilePath, .fileDeleted (cappedText maxFilePathBytes path)⟩
  | .fileRenamed oldName newPath pid identity =>
    -- The completion context already holds the capped name: its cut is not flagged.
    ⟨.fileRenamed, pid, stamp.sequence, stamp.time, identity,
      truncNone ||| flagIf (isCut maxFilePathBytes (oldName.map captureOldPath)) truncOldPath |||
        flagIf (isCut maxFilePathBytes newPath) truncNewPath,
      .fileRenamed (cappedText maxFilePathBytes oldName) (cappedText maxFilePathBytes newPath)⟩
  | .dropCaptured path stored method pid identity =>
    ⟨.dropCaptured, pid, stamp.sequence, stamp.time, identity,
      truncNone ||| flagIf (isCut maxFilePathBytes path) truncFilePath |||
        flagIf (isCut storedScratchBytes stored) truncNewPath,
      .dropCaptured (cappedText maxFilePathBytes path) (cappedText storedScratchBytes stored) method⟩
  | .behaviorCall pid createTime tid api arg0 arg1 arg2 arg3 =>
    ⟨.behaviorCall, pid, stamp.sequence, stamp.time, createTime, truncNone,
      .behaviorCall tid api arg0 arg1 arg2 arg3⟩
  | .protectionEvent opener openerId target targetTime isThread original stripped =>
    ⟨.protectionEvent, opener, stamp.sequence, stamp.time, openerId, truncNone,
      .protectionEvent target targetTime (isThread != 0) original stripped⟩

/-! ## Capped copies -/

theorem copyNameW_some (s : UnicodeString) (cap : ℕ) :
    copyNameW (some s) cap =
      ⟨s.bytes.take (min s.bytes.length cap / 2 * 2),
        decide (min s.bytes.length cap / 2 * 2 < s.bytes.length)⟩ := by
  by_cases hpos : 0 < s.bytes.length
  · rw [copyNameW, UnicodeString.length, if_pos hpos]
  · have hnil : s.bytes = [] := List.length_eq_zero_iff.mp (by omega)
    simp [copyNameW, UnicodeString.length, hnil]

theorem copyNameW_le (src : Option UnicodeString) (cap : ℕ) :
    (copyNameW src cap).bytes.length ≤ cap := by
  cases src with
  | none => exact Nat.zero_le _
  | some s =>
    rw [copyNameW_some, List.length_take]
    omega

theorem copyNameW_even (src : Option UnicodeString) (cap : ℕ) :
    (copyNameW src cap).bytes.length % 2 = 0 := by
  cases src with
  | none => rfl
  | some s =>
    rw [copyNameW_some, List.length_take]
    omega

theorem unitsOf_copyNameW (src : Option UnicodeString) (cap : ℕ) :
    unitsOf (copyNameW src cap).bytes = cappedUnits cap src := by
  cases src with
  | none => rfl
  | some s =>
    have hlen := unitsOf_length s.bytes
    rw [copyNameW_some, Nat.mul_comm, unitsOf_take, cappedUnits]
    by_cases hcap : cap ≤ s.bytes.length
    · rw [Nat.min_eq_right hcap]
    · rw [Nat.min_eq_left (by omega), List.take_of_length_le (by omega),
        List.take_of_length_le (by omega)]

theorem copyNameW_length (src : Option UnicodeString) (cap : ℕ) :
    (copyNameW src cap).bytes.length = 2 * (cappedUnits cap src).length := by
  have heven := copyNameW_even src cap
  rw [← unitsOf_copyNameW, unitsOf_length]
  omega

theorem copyNameW_truncated (src : Option UnicodeString) (cap : ℕ) :
    (copyNameW src cap).truncated = isCut cap src := by
  have hlen := copyNameW_length src cap
  cases src with
  | none => rfl
  | some s =>
    rw [isCut, ← hlen, UnicodeString.length, copyNameW_some, decide_eq_decide, List.length_take]
    omega

/-! ## Headers -/

def headerWrites (totalSize : ℕ) (type : RecordType) (pid : UInt32) (processCreateTime : UInt64)
    (stamp : Stamp) (flags : UInt8) : List Write :=
  [ushortAt 0 wireMagic, ucharAt 2 wireVersion, ucharAt 3 flags, ushortAt 4 type.code,
   ushortAt 6 48, ulongAt 8 pid, ulong64At 16 stamp.sequence, ulong64At 24 stamp.time,
   ulong64At 32 processCreateTime, ulongAt 40 (.ofNat totalSize)]

/-- The buffer is a record of that size with that header. -/
structure Headed (buf : List UInt8) (type : RecordType) (pid : UInt32) (processCreateTime : UInt64)
    (stamp : Stamp) (flags : UInt8) : Prop where
  size_ge : 48 ≤ buf.length
  fields : ∀ w ∈ headerWrites buf.length type pid processCreateTime stamp flags,
    Holds buf w.off w.bytes

theorem headerWrites_laid (totalSize : ℕ) (type : RecordType) (pid : UInt32)
    (processCreateTime : UInt64) (stamp : Stamp) (flags : UInt8) :
    Laid 0 (headerWrites totalSize type pid processCreateTime stamp flags) 48 := by
  simp [headerWrites, Laid, ushortAt, ucharAt, ulongAt, ulong64At]

@[simp] theorem allocRecord_length (totalSize : ℕ) (type : RecordType) (pid : UInt32)
    (processCreateTime : UInt64) (stamp : Stamp) :
    (allocRecord totalSize type pid processCreateTime stamp).length = totalSize := by
  simp [allocRecord]

@[simp] theorem orTruncFlags_length (header : List UInt8) (cond : Bool) (flag : UInt8) :
    (orTruncFlags header cond flag).length = header.length := by
  cases cond <;> simp [orTruncFlags]

variable {buf : List UInt8} {type : RecordType} {pid : UInt32} {processCreateTime : UInt64}
  {stamp : Stamp} {flags : UInt8}

theorem headed_allocRecord {totalSize : ℕ} (h : 48 ≤ totalSize) :
    Headed (allocRecord totalSize type pid processCreateTime stamp) type pid processCreateTime stamp
      truncNone := by
  refine ⟨by simpa using h, ?_⟩
  rw [allocRecord_length]
  exact holds_writeAll (headerWrites_laid totalSize type pid processCreateTime stamp truncNone)
    (by simpa using h)

theorem Headed.truncFlags (h : Headed buf type pid processCreateTime stamp flags) :
    buf.getD 3 0 = flags := by
  have hbyte := (h.fields (ucharAt 3 flags) (by simp [headerWrites])).getElem? (i := 0) (by simp [ucharAt])
  simp only [ucharAt, leBytes, Nat.add_zero, List.getElem?_cons_zero, UInt8.ofNat_toNat] at hbyte
  rw [List.getD_eq_getElem?_getD, hbyte]
  rfl

theorem Headed.orTruncFlags (h : Headed buf type pid processCreateTime stamp flags) (cond : Bool)
    (flag : UInt8) :
    Headed (orTruncFlags buf cond flag) type pid processCreateTime stamp
      (flags ||| flagIf cond flag) := by
  cases cond with
  | false => simpa [Wire.orTruncFlags, flagIf] using h
  | true =>
    have hsize := h.size_ge
    have hfields := h.fields
    simp only [headerWrites, List.forall_mem_cons, ushortAt, ucharAt, ulongAt, ulong64At] at hfields
    obtain ⟨hmagic, hversion, -, htype, hheader, hpid, hseq, htime, hct, htotal, -⟩ := hfields
    refine ⟨by simpa using hsize, ?_⟩
    rw [orTruncFlags_length]
    simp only [headerWrites, List.forall_mem_cons, ushortAt, ucharAt, ulongAt,
      ulong64At, Wire.orTruncFlags, if_true, RecordHeader.truncFlags_off, h.truncFlags, flagIf]
    have hnew : leBytes 1 (flags ||| flag).toNat = [flags ||| flag] := by
      simp only [leBytes, UInt8.ofNat_toNat]
    rw [hnew]
    exact ⟨hmagic.store (by simp), hversion.store (by simp), holds_store (by simp; omega),
      htype.store (by simp), hheader.store (by simp), hpid.store (by simp), hseq.store (by simp),
      htime.store (by simp), hct.store (by simp), htotal.store (by simp), by simp⟩

theorem Headed.writeAll (h : Headed buf type pid processCreateTime stamp flags) {ws : List Write}
    {stop : ℕ} (hl : Laid 48 ws stop) :
    Headed (writeAll buf ws) type pid processCreateTime stamp flags := by
  refine ⟨by simpa using h.size_ge, ?_⟩
  rw [writeAll_length]
  intro w hw
  have hend : w.off + w.bytes.length ≤ 48 :=
    Laid.end_le (headerWrites_laid _ _ _ _ _ _) w hw
  exact (h.fields w hw).writeAll hl hend

/-- The buffer is a record of that header and size in which every assignment reads back. -/
structure Emitted (buf : List UInt8) (type : RecordType) (pid : UInt32) (processCreateTime : UInt64)
    (stamp : Stamp) (flags : UInt8) (size : ℕ) (ws : List Write) : Prop where
  headed : Headed buf type pid processCreateTime stamp flags
  length_eq : buf.length = size
  holds : ∀ w ∈ ws, Holds buf w.off w.bytes

theorem Headed.emitted (h : Headed buf type pid processCreateTime stamp flags) {ws : List Write}
    {size : ℕ} (hsize : buf.length = size) (hl : Laid 48 ws size) :
    Emitted (Bytes.writeAll buf ws) type pid processCreateTime stamp flags size ws :=
  ⟨h.writeAll hl, by rw [writeAll_length, hsize], holds_writeAll hl hsize.ge⟩

/-! ## Records -/

/-- The bytes fit the producer's bound and the consumer reads them as `r`, whatever follows. -/
structure Conveys (bytes : List UInt8) (r : Record) : Prop where
  bounded : bytes.length ≤ maxRecordBytes
  size : ∀ tail, recordSize (bytes ++ tail) = .ok bytes.length
  decoded : ∀ tail, decode (bytes ++ tail) = .ok r

theorem Headed.u32At_size (h : Headed buf type pid processCreateTime stamp flags) (tail : List UInt8) :
    u32At (buf ++ tail) 40 = .ok (.ofNat buf.length) :=
  u32At_of_word ((h.fields (ulongAt 40 (.ofNat buf.length)) (by simp [headerWrites])).append tail)

theorem Headed.conveys (h : Headed buf type pid processCreateTime stamp flags)
    (hmax : buf.length ≤ maxRecordBytes) {kind : RecordKind}
    (hkind : RecordKind.fromWire type.code = some kind) (hmin : minSize kind ≤ buf.length)
    {payload : Payload} (hp : payloadFields kind buf buf.length = .ok payload) :
    Conveys buf ⟨kind, pid, stamp.sequence, stamp.time, processCreateTime, flags, payload⟩ := by
  have hge := h.size_ge
  have hcap := maxRecordBytes_eq
  have hnat : (UInt32.ofNat buf.length).toNat = buf.length :=
    UInt32.toNat_ofNat_of_lt (by simp only [UInt32.size]; omega)
  refine ⟨hmax, fun tail => ?_, fun tail => ?_⟩
  · simp only [recordSize, h.u32At_size tail, bind, Except.bind, hnat, List.length_append,
      headerSizeBytes]
    rw [if_neg (by omega)]
    rfl
  · have hfields := fun w hw => (h.fields w hw).append tail
    simp only [headerWrites, List.forall_mem_cons, ushortAt, ucharAt, ulongAt, ulong64At] at hfields
    obtain ⟨hmagic, hversion, hflags, htype, hheader, hpid, hseq, htime, hct, -, -⟩ := hfields
    have hlen : ¬ (buf ++ tail).length < headerSizeBytes := by
      simp only [List.length_append, headerSizeBytes]
      omega
    have hsize : ¬ (buf.length < headerSizeBytes ∨ buf.length > (buf ++ tail).length) := by
      simp only [List.length_append, headerSizeBytes]
      omega
    have hover : ¬ buf.length > decodeMaxRecordBytes := by
      simp only [decodeMaxRecordBytes]
      omega
    have hpay : payloadOf kind buf buf.length (.ofNat buf.length) = .ok payload := by
      rw [payloadOf, if_neg (by omega), hp]
    simp only [decode, bind, Except.bind, pure, Except.pure, if_neg hlen, u16At_of_word hmagic,
      u8At_of_word hversion, u8At_of_word hflags, u16At_of_word htype, u16At_of_word hheader,
      u32At_of_word hpid, u64At_of_word hseq, u64At_of_word htime, u64At_of_word hct,
      h.u32At_size tail, hnat, if_neg hsize, if_neg hover, hkind, List.take_left, hpay]
    rfl

/-- The assignments of a routine, made into the record it allocated, read back. -/
theorem Emitted.conveys {size : ℕ} {ws : List Write}
    (h : Emitted buf type pid processCreateTime stamp flags size ws) (hmax : size ≤ maxRecordBytes)
    {kind : RecordKind} (hkind : RecordKind.fromWire type.code = some kind)
    (hmin : minSize kind ≤ size) {payload : Payload}
    (hp : (∀ w ∈ ws, Holds buf w.off w.bytes) → payloadFields kind buf size = .ok payload) :
    Conveys buf ⟨kind, pid, stamp.sequence, stamp.time, processCreateTime, flags, payload⟩ := by
  obtain ⟨hheaded, rfl, hholds⟩ := h
  exact hheaded.conveys hmax hkind hmin (hp hholds)

theorem Headed.conveys_writeAll (h : Headed buf type pid processCreateTime stamp flags)
    {ws : List Write} (hl : Laid 48 ws buf.length) (hmax : buf.length ≤ maxRecordBytes)
    {kind : RecordKind} (hkind : RecordKind.fromWire type.code = some kind)
    (hmin : minSize kind ≤ buf.length) {payload : Payload}
    (hp : ∀ record, (∀ w ∈ ws, Holds record w.off w.bytes) →
      payloadFields kind record buf.length = .ok payload) :
    Conveys (Bytes.writeAll buf ws)
      ⟨kind, pid, stamp.sequence, stamp.time, processCreateTime, flags, payload⟩ :=
  (h.emitted rfl hl).conveys hmax hkind hmin (hp _)

/-! ## The routines -/

theorem stringAt_copy {record : List UInt8} {off cap : ℕ} {src : Option UnicodeString}
    (h : 0 < (copyNameW src cap).bytes.length → Holds record off (copyNameW src cap).bytes) :
    stringAt record off (copyNameW src cap).bytes.length = .ok (cappedText cap src) := by
  rw [stringAt_of_holds (copyNameW_even src cap) h, unitsOf_copyNameW, cappedText]

theorem nameAt_copy {record : List UInt8} {off cap : ℕ} {src : Option UnicodeString}
    (h : 0 < (copyNameW src cap).bytes.length → Holds record off (copyNameW src cap).bytes) :
    nameAt record off (copyNameW src cap).bytes.length = .ok (cappedName cap src) := by
  have hlen := copyNameW_length src cap
  rw [nameAt, cappedName]
  by_cases h0 : (copyNameW src cap).bytes.length = 0
  · have hnil : cappedUnits cap src = [] := List.length_eq_zero_iff.mp (by omega)
    rw [if_pos h0, if_pos hnil]
  · have hne : cappedUnits cap src ≠ [] := fun he => h0 (by rw [hlen, he]; rfl)
    rw [if_neg h0, if_neg hne, stringAt_copy h]
    rfl

/-- A guarded copy stores what an unguarded one does, wherever that puts no bytes. -/
theorem writeAll_guarded {off off' : ℕ} {bs : List UInt8} (h : 0 < bs.length → off = off')
    (ws : List Write) :
    writeAll buf (ws ++ if 0 < bs.length then [memcpy off bs] else []) =
      writeAll buf (ws ++ [memcpy off' bs]) := by
  rw [writeAll_append, writeAll_append]
  by_cases hpos : 0 < bs.length
  · rw [if_pos hpos, h hpos]
  · have hnil : bs = [] := List.length_eq_zero_iff.mp (by omega)
    have hkeep : ∀ buf : List UInt8, store buf off' [] = buf := by
      intro buf
      apply List.ext_getElem?
      intro i
      rw [store_getElem?]
      cases buf[i]? <;> simp
    rw [hnil, if_neg (by decide)]
    exact (hkeep _).symm

theorem pathAt_of_holds {record : List UInt8} (off : ℕ) {cap : ℕ} {src : Option UnicodeString}
    (hoff : off < 2 ^ 16) (hcap : cap < 2 ^ 16)
    (hpath : Holds record 48 (leBytes 2 (UInt16.ofNat off).toNat))
    (hbytes : Holds record 50 (leBytes 2 (UInt16.ofNat (copyNameW src cap).bytes.length).toNat))
    (h : Holds record off (copyNameW src cap).bytes) :
    pathAt record = .ok (cappedText cap src) := by
  have hlen := copyNameW_le src cap
  simp only [pathAt, extentAt_of_word hoff hpath,
    extentAt_of_word (lt_of_le_of_lt hlen hcap) hbytes, bind, Except.bind,
    stringAt_copy fun _ => h]

theorem emitted_registryKeyRecord (path : Option UnicodeString) (identity : UInt64) :
    Emitted (emitRegistryKeyRecord type path pid identity stamp) type pid identity stamp
      (truncNone ||| flagIf (isCut maxKeyPathBytes path) truncKeyPath)
      (52 + (copyNameW path maxKeyPathBytes).bytes.length)
      [ushortAt 48 52, ushortAt 50 (.ofNat (copyNameW path maxKeyPathBytes).bytes.length),
        memcpy 52 (copyNameW path maxKeyPathBytes).bytes] := by
  simp only [emitRegistryKeyRecord, copyNameW_truncated, registryKeyFixed_eq,
    RegistryKeyRecord.pathOffset_off, RegistryKeyRecord.pathBytes_off]
  exact ((headed_allocRecord (by omega)).orTruncFlags _ _).emitted (by simp)
    (by simp [Laid, ushortAt, memcpy])

theorem conveys_emitRegistryKeyRecord (path : Option UnicodeString) (identity : UInt64)
    {kind : RecordKind} {payload : String → Payload}
    (hkind : RecordKind.fromWire type.code = some kind) (hmin : minSize kind = 52)
    (hp : ∀ record size, payloadFields kind record size = payload <$> pathAt record) :
    Conveys (emitRegistryKeyRecord type path pid identity stamp)
      ⟨kind, pid, stamp.sequence, stamp.time, identity,
        truncNone ||| flagIf (isCut maxKeyPathBytes path) truncKeyPath,
        payload (cappedText maxKeyPathBytes path)⟩ := by
  have hle := copyNameW_le path maxKeyPathBytes
  have hcap : maxKeyPathBytes = 1024 := rfl
  refine (emitted_registryKeyRecord path identity).conveys (by simp; omega) hkind (by omega)
    fun hw => ?_
  simp only [List.forall_mem_cons, ushortAt, memcpy] at hw
  obtain ⟨hpath, hbytes, hdata, -⟩ := hw
  rw [hp, pathAt_of_holds 52 (by omega) (by omega) hpath hbytes hdata]
  rfl

theorem emitted_fileRecord (path : Option UnicodeString) (identity : UInt64) :
    Emitted (emitFileRecord type path pid identity stamp) type pid identity stamp
      (truncNone ||| flagIf (isCut maxFilePathBytes path) truncFilePath)
      (52 + (copyNameW path maxFilePathBytes).bytes.length)
      [ushortAt 48 52, ushortAt 50 (.ofNat (copyNameW path maxFilePathBytes).bytes.length),
        memcpy 52 (copyNameW path maxFilePathBytes).bytes] := by
  simp only [emitFileRecord, copyNameW_truncated, fileFixed_eq, FileRecord.pathOffset_off,
    FileRecord.pathBytes_off]
  exact ((headed_allocRecord (by omega)).orTruncFlags _ _).emitted (by simp)
    (by simp [Laid, ushortAt, memcpy])

theorem conveys_emitFileRecord (path : Option UnicodeString) (identity : UInt64)
    {kind : RecordKind} {payload : String → Payload}
    (hkind : RecordKind.fromWire type.code = some kind) (hmin : minSize kind = 52)
    (hp : ∀ record size, payloadFields kind record size = payload <$> pathAt record) :
    Conveys (emitFileRecord type path pid identity stamp)
      ⟨kind, pid, stamp.sequence, stamp.time, identity,
        truncNone ||| flagIf (isCut maxFilePathBytes path) truncFilePath,
        payload (cappedText maxFilePathBytes path)⟩ := by
  have hle := copyNameW_le path maxFilePathBytes
  have hcap : maxFilePathBytes = 1024 := rfl
  refine (emitted_fileRecord path identity).conveys (by simp; omega) hkind (by omega) fun hw => ?_
  simp only [List.forall_mem_cons, ushortAt, memcpy] at hw
  obtain ⟨hpath, hbytes, hdata, -⟩ := hw
  rw [hp, pathAt_of_holds 52 (by omega) (by omega) hpath hbytes hdata]
  rfl

theorem conveys_emitProcessExited (pid : UInt32) (createTime : UInt64) (stamp : Stamp) :
    Conveys (emitProcessExited pid createTime stamp)
      ⟨.processExited, pid, stamp.sequence, stamp.time, createTime, truncNone, .processExited⟩ :=
  (headed_allocRecord (by simp)).conveys (by simp) rfl (by simp [minSize]) rfl

theorem conveys_emitThread (create : Bool) (pid threadId : UInt32) (identity : UInt64)
    (stamp : Stamp) :
    Conveys (emitThread create pid threadId identity stamp)
      ⟨if create then .threadCreated else .threadExited, pid, stamp.sequence, stamp.time, identity,
        truncNone, .thread threadId⟩ := by
  refine (headed_allocRecord (by simp)).conveys_writeAll
    (by simp [Laid, ulongAt]) (by simp) (by cases create <;> rfl)
    (by cases create <;> simp [minSize]) fun record hw => ?_
  simp only [List.forall_mem_cons, ulongAt, ThreadRecord.threadId_off] at hw
  cases create <;> simp only [payloadFields, u32At_of_word hw.1, bind, Except.bind] <;> rfl

theorem emitted_imageLoaded (pid : UInt32) (imageBase imageSize : UInt64)
    (name : Option UnicodeString) (identity : UInt64) (stamp : Stamp) :
    Emitted (emitImageLoaded pid imageBase imageSize name identity stamp) .imageLoaded pid identity stamp
      (truncNone ||| flagIf (isCut maxImageNameBytes name) truncImageName)
      (64 + (copyNameW name maxImageNameBytes).bytes.length)
      [ulong64At 48 imageBase, ulongAt 56 imageSize.toUInt32, ushortAt 60 (.ofNat 64),
        ushortAt 62 (.ofNat (copyNameW name maxImageNameBytes).bytes.length),
        memcpy 64 (copyNameW name maxImageNameBytes).bytes] := by
  have hoff : (UInt16.ofNat 64).toNat = 64 := rfl
  simp only [emitImageLoaded, copyNameW_truncated, imageLoadedFixed_eq,
    ImageLoadedRecord.imageBase_off, ImageLoadedRecord.imageSize_off,
    ImageLoadedRecord.nameOffset_off, ImageLoadedRecord.nameBytes_off, hoff]
  rw [writeAll_guarded fun _ => rfl]
  exact ((headed_allocRecord (by omega)).orTruncFlags _ _).emitted (by simp)
    (by simp [Laid, ushortAt, ulongAt, ulong64At, memcpy])

theorem conveys_emitImageLoaded (pid : UInt32) (imageBase imageSize : UInt64)
    (name : Option UnicodeString) (identity : UInt64) (stamp : Stamp) :
    Conveys (emitImageLoaded pid imageBase imageSize name identity stamp)
      ⟨.imageLoaded, pid, stamp.sequence, stamp.time, identity,
        truncNone ||| flagIf (isCut maxImageNameBytes name) truncImageName,
        .imageLoaded imageBase imageSize.toUInt32 (cappedName maxImageNameBytes name)⟩ := by
  have hle := copyNameW_le name maxImageNameBytes
  have hcap : maxImageNameBytes = 1024 := rfl
  refine (emitted_imageLoaded pid imageBase imageSize name identity stamp).conveys (by simp; omega) rfl
    (by simp [minSize]) fun hw => ?_
  simp only [List.forall_mem_cons, ushortAt, ulongAt, ulong64At, memcpy] at hw
  obtain ⟨hbase, hsize, hnoff, hnbytes, hcopy, -⟩ := hw
  have hname := nameAt_copy fun _ => hcopy
  simp only [payloadFields, u64At_of_word hbase, u32At_of_word hsize,
    extentAt_of_word (n := 64) (by omega) hnoff, extentAt_of_word (by omega) hnbytes, hname, bind,
    Except.bind]
  rfl

theorem emitted_fileWritten (path : Option UnicodeString) (offset : UInt64) (length pid : UInt32)
    (identity : UInt64) (stamp : Stamp) :
    Emitted (emitFileWritten path offset length pid identity stamp) .fileWritten pid identity stamp
      (truncNone ||| flagIf (isCut maxFilePathBytes path) truncFilePath)
      (64 + (copyNameW path maxFilePathBytes).bytes.length)
      [ulong64At 48 offset, ulongAt 56 length, ushortAt 60 (.ofNat 64),
        ushortAt 62 (.ofNat (copyNameW path maxFilePathBytes).bytes.length),
        memcpy 64 (copyNameW path maxFilePathBytes).bytes] := by
  have hoff : (UInt16.ofNat 64).toNat = 64 := rfl
  simp only [emitFileWritten, copyNameW_truncated, fileWrittenFixed_eq, FileWrittenRecord.byteOffset_off,
    FileWrittenRecord.bytesCount_off, FileWrittenRecord.pathOffset_off, FileWrittenRecord.pathBytes_off,
    hoff]
  exact ((headed_allocRecord (by omega)).orTruncFlags _ _).emitted (by simp)
    (by simp [Laid, ushortAt, ulongAt, ulong64At, memcpy])

theorem conveys_emitFileWritten (path : Option UnicodeString) (offset : UInt64) (length pid : UInt32)
    (identity : UInt64) (stamp : Stamp) :
    Conveys (emitFileWritten path offset length pid identity stamp)
      ⟨.fileWritten, pid, stamp.sequence, stamp.time, identity,
        truncNone ||| flagIf (isCut maxFilePathBytes path) truncFilePath,
        .fileWritten offset length (cappedText maxFilePathBytes path)⟩ := by
  have hle := copyNameW_le path maxFilePathBytes
  have hcap : maxFilePathBytes = 1024 := rfl
  refine (emitted_fileWritten path offset length pid identity stamp).conveys (by simp; omega) rfl
    (by simp [minSize]) fun hw => ?_
  simp only [List.forall_mem_cons, ushortAt, ulongAt, ulong64At, memcpy] at hw
  obtain ⟨hoffset, hlength, hpath, hbytes, hdata, -⟩ := hw
  have htext := stringAt_copy fun _ => hdata
  simp only [payloadFields, u64At_of_word hoffset, u32At_of_word hlength,
    extentAt_of_word (n := 64) (by omega) hpath, extentAt_of_word (by omega) hbytes, bind,
    Except.bind, htext]
  rfl

theorem conveys_emitBehaviorCall (pid : UInt32) (createTime : UInt64) (threadId api : UInt32)
    (arg0 arg1 arg2 arg3 : UInt64) (stamp : Stamp) :
    Conveys (emitBehaviorCallInternal pid createTime threadId api arg0 arg1 arg2 arg3 stamp)
      ⟨.behaviorCall, pid, stamp.sequence, stamp.time, createTime, truncNone,
        .behaviorCall threadId api arg0 arg1 arg2 arg3⟩ := by
  refine (headed_allocRecord (by simp)).conveys_writeAll
    (by simp [Laid, ulongAt, ulong64At]) (by simp) rfl (by simp [minSize])
    fun record hw => ?_
  simp only [List.forall_mem_cons, ulongAt, ulong64At, BehaviorCallRecord.threadId_off,
    BehaviorCallRecord.api_off, BehaviorCallRecord.arg0_off, BehaviorCallRecord.arg1_off,
    BehaviorCallRecord.arg2_off, BehaviorCallRecord.arg3_off] at hw
  obtain ⟨htid, hapi, h0, h1, h2, h3, -⟩ := hw
  simp only [payloadFields, parseBehaviorCall, u32At_of_word htid, u32At_of_word hapi,
    u64At_of_word h0, u64At_of_word h1, u64At_of_word h2, u64At_of_word h3, bind, Except.bind]
  rfl

theorem conveys_emitStrippedEvent (openerPid : UInt32) (openerIdentity : UInt64)
    (protectedPid : UInt32) (protectedCreateTime : UInt64) (targetIsThread : UInt8)
    (originalAccess strippedAccess : UInt64) (stamp : Stamp) :
    Conveys (emitStrippedEvent openerPid openerIdentity protectedPid protectedCreateTime targetIsThread
        originalAccess strippedAccess stamp)
      ⟨.protectionEvent, openerPid, stamp.sequence, stamp.time, openerIdentity, truncNone,
        .protectionEvent protectedPid protectedCreateTime (targetIsThread != 0) originalAccess
          strippedAccess⟩ := by
  refine (headed_allocRecord (by simp)).conveys_writeAll
    (by simp [Laid, ulongAt, ulong64At, ucharAt]) (by simp) rfl (by simp [minSize])
    fun record hw => ?_
  simp only [List.forall_mem_cons, ulongAt, ulong64At, ucharAt, ProtectionEventRecord.protectedPid_off,
    ProtectionEventRecord.targetIsThread_off, ProtectionEventRecord.protectedCreateTime_off,
    ProtectionEventRecord.originalDesiredAccess_off, ProtectionEventRecord.strippedAccess_off] at hw
  obtain ⟨hpid, hthread, hct, horig, hstrip, -⟩ := hw
  simp only [payloadFields, parseProtectionEvent, u32At_of_word hpid, u8At_of_word hthread,
    u64At_of_word hct, u64At_of_word horig, u64At_of_word hstrip, bind, Except.bind]
  rfl

theorem emitted_fileRenamed (context newPath : Option UnicodeString) (pid : UInt32) (identity : UInt64)
    (stamp : Stamp) :
    Emitted (emitFileRenamed context newPath pid identity stamp) .fileRenamed pid identity stamp
      (truncNone ||| flagIf (isCut maxFilePathBytes context) truncOldPath |||
        flagIf (isCut maxFilePathBytes newPath) truncNewPath)
      (56 + (copyNameW context maxFilePathBytes).bytes.length +
        (copyNameW newPath maxFilePathBytes).bytes.length)
      [ushortAt 48 (.ofNat 56), ushortAt 50 (.ofNat (copyNameW context maxFilePathBytes).bytes.length),
        ushortAt 52 (.ofNat (56 + (copyNameW context maxFilePathBytes).bytes.length)),
        ushortAt 54 (.ofNat (copyNameW newPath maxFilePathBytes).bytes.length),
        memcpy 56 (copyNameW context maxFilePathBytes).bytes,
        memcpy (56 + (copyNameW context maxFilePathBytes).bytes.length)
          (copyNameW newPath maxFilePathBytes).bytes] := by
  have hle := copyNameW_le context maxFilePathBytes
  have hcap : maxFilePathBytes = 1024 := rfl
  have hoff : (UInt16.ofNat 56).toNat = 56 := rfl
  have hnoff : (UInt16.ofNat (56 + (copyNameW context maxFilePathBytes).bytes.length)).toNat =
      56 + (copyNameW context maxFilePathBytes).bytes.length :=
    UInt16.toNat_ofNat_of_lt (by simp only [UInt16.size]; omega)
  simp only [emitFileRenamed, copyNameW_truncated, fileRenamedFixed_eq,
    FileRenamedRecord.oldPathOffset_off, FileRenamedRecord.oldPathBytes_off,
    FileRenamedRecord.newPathOffset_off, FileRenamedRecord.newPathBytes_off, hoff, hnoff]
  rw [writeAll_append, writeAll_guarded fun _ => rfl, ← writeAll_append]
  exact (((headed_allocRecord (by omega)).orTruncFlags _ _).orTruncFlags _ _).emitted (by simp)
    (by simp [Laid, ushortAt, memcpy])

theorem conveys_emitFileRenamed (context newPath : Option UnicodeString) (pid : UInt32)
    (identity : UInt64) (stamp : Stamp) :
    Conveys (emitFileRenamed context newPath pid identity stamp)
      ⟨.fileRenamed, pid, stamp.sequence, stamp.time, identity,
        truncNone ||| flagIf (isCut maxFilePathBytes context) truncOldPath |||
          flagIf (isCut maxFilePathBytes newPath) truncNewPath,
        .fileRenamed (cappedText maxFilePathBytes context) (cappedText maxFilePathBytes newPath)⟩ := by
  have hle := copyNameW_le context maxFilePathBytes
  have hle' := copyNameW_le newPath maxFilePathBytes
  have hcap : maxFilePathBytes = 1024 := rfl
  refine (emitted_fileRenamed context newPath pid identity stamp).conveys (by simp; omega) rfl
    (by simp [minSize]; omega) fun hw => ?_
  simp only [List.forall_mem_cons, ushortAt, memcpy] at hw
  obtain ⟨hooff, hobytes, hnewoff, hnbytes, hold, hnew, -⟩ := hw
  have holdText := stringAt_copy fun _ => hold
  have hnewText := stringAt_copy fun _ => hnew
  simp only [payloadFields, extentAt_of_word (n := 56) (by omega) hooff,
    extentAt_of_word (by omega) hobytes, extentAt_of_word (by omega) hnewoff,
    extentAt_of_word (by omega) hnbytes, bind, Except.bind, holdText, hnewText]
  rfl

theorem emitted_dropCaptured (path storedName : Option UnicodeString) (method pid : UInt32)
    (identity : UInt64) (stamp : Stamp) :
    Emitted (emitDropCaptured path storedName method pid identity stamp) .dropCaptured pid identity stamp
      (truncNone ||| flagIf (isCut maxFilePathBytes path) truncFilePath |||
        flagIf (isCut storedScratchBytes storedName) truncNewPath)
      (60 + (copyNameW path maxFilePathBytes).bytes.length +
        (copyNameW storedName storedScratchBytes).bytes.length)
      [ushortAt 48 (.ofNat 60), ushortAt 50 (.ofNat (copyNameW path maxFilePathBytes).bytes.length),
        ushortAt 52 (.ofNat (60 + (copyNameW path maxFilePathBytes).bytes.length)),
        ushortAt 54 (.ofNat (copyNameW storedName storedScratchBytes).bytes.length),
        ulongAt 56 method, memcpy 60 (copyNameW path maxFilePathBytes).bytes,
        memcpy (60 + (copyNameW path maxFilePathBytes).bytes.length)
          (copyNameW storedName storedScratchBytes).bytes] := by
  have hle := copyNameW_le path maxFilePathBytes
  have hcap : maxFilePathBytes = 1024 := rfl
  have hoff : (UInt16.ofNat 60).toNat = 60 := rfl
  have hsoff : (UInt16.ofNat (60 + (copyNameW path maxFilePathBytes).bytes.length)).toNat =
      60 + (copyNameW path maxFilePathBytes).bytes.length :=
    UInt16.toNat_ofNat_of_lt (by simp only [UInt16.size]; omega)
  simp only [emitDropCaptured, copyNameW_truncated, dropCapturedFixed_eq,
    DropCapturedRecord.pathOffset_off, DropCapturedRecord.pathBytes_off,
    DropCapturedRecord.storedOffset_off, DropCapturedRecord.storedBytes_off,
    DropCapturedRecord.method_off, hoff, hsoff]
  exact (((headed_allocRecord (by omega)).orTruncFlags _ _).orTruncFlags _ _).emitted (by simp)
    (by simp [Laid, ushortAt, ulongAt, memcpy])

theorem conveys_emitDropCaptured (path storedName : Option UnicodeString) (method pid : UInt32)
    (identity : UInt64) (stamp : Stamp) :
    Conveys (emitDropCaptured path storedName method pid identity stamp)
      ⟨.dropCaptured, pid, stamp.sequence, stamp.time, identity,
        truncNone ||| flagIf (isCut maxFilePathBytes path) truncFilePath |||
          flagIf (isCut storedScratchBytes storedName) truncNewPath,
        .dropCaptured (cappedText maxFilePathBytes path) (cappedText storedScratchBytes storedName)
          method⟩ := by
  have hle := copyNameW_le path maxFilePathBytes
  have hle' := copyNameW_le storedName storedScratchBytes
  have hcap : maxFilePathBytes = 1024 := rfl
  have hcap' : storedScratchBytes = 128 := rfl
  refine (emitted_dropCaptured path storedName method pid identity stamp).conveys (by simp; omega) rfl
    (by simp [minSize]; omega) fun hw => ?_
  simp only [List.forall_mem_cons, ushortAt, ulongAt, memcpy] at hw
  obtain ⟨hpoff, hpbytes, hsoff', hsbytes, hmethod, hpath, hstored, -⟩ := hw
  have hpathText := stringAt_copy fun _ => hpath
  have hstoredText := stringAt_copy fun _ => hstored
  simp only [payloadFields, parseDropCaptured, extentAt_of_word (n := 60) (by omega) hpoff,
    extentAt_of_word (by omega) hpbytes, extentAt_of_word (by omega) hsoff',
    extentAt_of_word (by omega) hsbytes, u32At_of_word hmethod, bind, Except.bind, hpathText,
    hstoredText]
  rfl

theorem emitted_processCreated (pid parent : UInt32) (cmd image : Option UnicodeString) (stamp : Stamp) :
    Emitted (emitProcessCreated pid parent cmd image stamp) .processCreated pid 0 stamp
      (truncNone ||| flagIf (isCut maxCommandLineBytes cmd) truncCmdline |||
        flagIf (isCut maxImageNameBytes image) truncImageName)
      (64 + (copyNameW cmd maxCommandLineBytes).bytes.length +
        (copyNameW image maxImageNameBytes).bytes.length)
      [ulongAt 48 parent,
        ushortAt 52 (if 0 < (copyNameW cmd maxCommandLineBytes).bytes.length then .ofNat 64 else 0),
        ushortAt 54 (.ofNat (copyNameW cmd maxCommandLineBytes).bytes.length),
        ushortAt 56 (if 0 < (copyNameW image maxImageNameBytes).bytes.length then
          .ofNat (64 + (copyNameW cmd maxCommandLineBytes).bytes.length) else 0),
        ushortAt 58 (.ofNat (copyNameW image maxImageNameBytes).bytes.length),
        memcpy 64 (copyNameW cmd maxCommandLineBytes).bytes,
        memcpy (64 + (copyNameW cmd maxCommandLineBytes).bytes.length)
          (copyNameW image maxImageNameBytes).bytes] := by
  have hle := copyNameW_le cmd maxCommandLineBytes
  have hcap : maxCommandLineBytes = 8192 := rfl
  have hoff : (UInt16.ofNat 64).toNat = 64 := rfl
  have hioff : (UInt16.ofNat (64 + (copyNameW cmd maxCommandLineBytes).bytes.length)).toNat =
      64 + (copyNameW cmd maxCommandLineBytes).bytes.length :=
    UInt16.toNat_ofNat_of_lt (by simp only [UInt16.size]; omega)
  simp only [emitProcessCreated, copyNameW_truncated, processCreatedFixed_eq,
    ProcessCreatedRecord.parentProcessId_off, ProcessCreatedRecord.commandLineOffset_off,
    ProcessCreatedRecord.commandLineBytes_off, ProcessCreatedRecord.imageNameOffset_off,
    ProcessCreatedRecord.imageNameBytes_off]
  -- an absent name leaves its offset field 0 and makes no copy
  rw [writeAll_guarded fun hpos => by rw [if_pos hpos, hioff], writeAll_append,
    writeAll_guarded fun hpos => by rw [if_pos hpos, hoff], ← writeAll_append]
  exact (((headed_allocRecord (by omega)).orTruncFlags _ _).orTruncFlags _ _).emitted (by simp)
    (by simp [Laid, ushortAt, ulongAt, memcpy])

theorem conveys_emitProcessCreated (pid parent : UInt32) (cmd image : Option UnicodeString)
    (stamp : Stamp) :
    Conveys (emitProcessCreated pid parent cmd image stamp)
      ⟨.processCreated, pid, stamp.sequence, stamp.time, 0,
        truncNone ||| flagIf (isCut maxCommandLineBytes cmd) truncCmdline |||
          flagIf (isCut maxImageNameBytes image) truncImageName,
        .processCreated parent (cappedName maxCommandLineBytes cmd)
          (cappedName maxImageNameBytes image)⟩ := by
  have hle := copyNameW_le cmd maxCommandLineBytes
  have hle' := copyNameW_le image maxImageNameBytes
  have hcap : maxCommandLineBytes = 8192 := rfl
  have hcap' : maxImageNameBytes = 1024 := rfl
  have hoff : (UInt16.ofNat 64).toNat = 64 := rfl
  have hioff : (UInt16.ofNat (64 + (copyNameW cmd maxCommandLineBytes).bytes.length)).toNat =
      64 + (copyNameW cmd maxCommandLineBytes).bytes.length :=
    UInt16.toNat_ofNat_of_lt (by simp only [UInt16.size]; omega)
  refine (emitted_processCreated pid parent cmd image stamp).conveys (by simp; omega) rfl
    (by simp [minSize]; omega) fun hw => ?_
  simp only [List.forall_mem_cons, ushortAt, ulongAt, memcpy] at hw
  obtain ⟨hparent, hcoff, hcbytes, hnoff, hnbytes, hcmd, himage, -⟩ := hw
  have hcmdAt : 0 < (copyNameW cmd maxCommandLineBytes).bytes.length →
      Holds (emitProcessCreated pid parent cmd image stamp)
        (if 0 < (copyNameW cmd maxCommandLineBytes).bytes.length then .ofNat 64 else 0 : UInt16).toNat
        (copyNameW cmd maxCommandLineBytes).bytes := by
    intro hpos
    rwa [if_pos hpos, hoff]
  have himageAt : 0 < (copyNameW image maxImageNameBytes).bytes.length →
      Holds (emitProcessCreated pid parent cmd image stamp)
        (if 0 < (copyNameW image maxImageNameBytes).bytes.length then
          .ofNat (64 + (copyNameW cmd maxCommandLineBytes).bytes.length) else 0 : UInt16).toNat
        (copyNameW image maxImageNameBytes).bytes := by
    intro hpos
    rwa [if_pos hpos, hioff]
  have hcmdName := nameAt_copy hcmdAt
  have himageName := nameAt_copy himageAt
  simp only [payloadFields, u32At_of_word hparent, extentAt_of_u16 hcoff,
    extentAt_of_u16 hnoff, extentAt_of_word (by omega) hcbytes,
    extentAt_of_word (by omega) hnbytes, bind, Except.bind, hcmdName, himageName]
  rfl

/-- The pool block is zeroed, and the header fields do not reach behind the header. -/
theorem allocRecord_zero {totalSize off n : ℕ} (type : RecordType) (pid : UInt32)
    (processCreateTime : UInt64) (stamp : Stamp) (hoff : 48 ≤ off) (h : off + n ≤ totalSize) :
    Holds (allocRecord totalSize type pid processCreateTime stamp) off (List.replicate n 0) :=
  (holds_replicate 0 h).writeAll_above _
    (headerWrites_laid totalSize type pid processCreateTime stamp truncNone) hoff

theorem orTruncFlags_holds {header bs : List UInt8} {off : ℕ} (h : Holds header off bs)
    (hoff : 48 ≤ off) (cond : Bool) (flag : UInt8) : Holds (orTruncFlags header cond flag) off bs := by
  cases cond with
  | false => exact h
  | true =>
    simp only [orTruncFlags, if_true, RecordHeader.truncFlags_off]
    exact h.store (Or.inr (by simp only [List.length_singleton]; omega))

theorem ValueData.carried_of_some {value : ValueData} {data : List UInt8} (h : value.data = some data) :
    value.carried = data.take value.copiedBytes := by
  have hlen := value.data_length data h
  rw [ValueData.carried, h, Option.getD_some, ValueData.copiedBytes, ← hlen, Nat.min_comm,
    ← List.take_take, List.take_length]

theorem ValueData.carried_of_none {value : ValueData} (h : value.data = none) :
    value.carried = List.replicate value.copiedBytes 0 := by
  rw [ValueData.carried, h, Option.getD_none, List.take_replicate, ValueData.copiedBytes, Nat.min_comm]

theorem ValueData.carried_length (value : ValueData) : value.carried.length = value.copiedBytes := by
  cases hv : value.data with
  | none => rw [value.carried_of_none hv, List.length_replicate]
  | some data =>
    have hlen := value.data_length data hv
    rw [value.carried_of_some hv, List.length_take, hlen, ValueData.copiedBytes]
    omega

/-- Into a zeroed region the guarded copy is a copy of the carried data, present or not. -/
theorem writeAll_copyTo {value : ValueData} {off : ℕ}
    (h : Holds buf off (List.replicate value.copiedBytes 0)) :
    writeAll buf (value.copyTo off) = store buf off value.carried := by
  cases hv : value.data with
  | none =>
    rw [value.carried_of_none hv, h.store_eq]
    simp [ValueData.copyTo, hv, writeAll]
  | some data =>
    by_cases hpos : 0 < value.copiedBytes
    · rw [value.carried_of_some hv]
      simp [ValueData.copyTo, hv, hpos, writeAll, memcpy]
    · have h0 : value.copiedBytes = 0 := by omega
      have hnil : value.carried = [] := List.length_eq_zero_iff.mp (by rw [value.carried_length, h0])
      have hend : off ≤ buf.length := by simpa [h0] using h.1
      rw [hnil, (holds_nil hend).store_eq]
      simp [ValueData.copyTo, hv, h0, writeAll]

theorem emitted_registrySetValue (key name : Option UnicodeString) (dataType : UInt32)
    (value : ValueData) (pid : UInt32) (identity : UInt64) (stamp : Stamp) :
    Emitted (emitRegistrySetValue key name dataType value pid identity stamp) .registrySetValue pid
      identity stamp
      (truncNone ||| flagIf (isCut maxKeyPathBytes key) truncKeyPath |||
        flagIf (isCut maxValueNameBytes name) truncValueName |||
        flagIf (maxValueDataBytes < value.dataLength.toNat) truncData)
      (64 + (copyNameW key maxKeyPathBytes).bytes.length +
        (copyNameW name maxValueNameBytes).bytes.length + value.copiedBytes)
      [ushortAt 48 (.ofNat 64), ushortAt 50 (.ofNat (copyNameW key maxKeyPathBytes).bytes.length),
        ushortAt 52 (.ofNat (64 + (copyNameW key maxKeyPathBytes).bytes.length)),
        ushortAt 54 (.ofNat (copyNameW name maxValueNameBytes).bytes.length), ulongAt 56 dataType,
        ulongAt 60 (.ofNat value.copiedBytes), memcpy 64 (copyNameW key maxKeyPathBytes).bytes,
        memcpy (64 + (copyNameW key maxKeyPathBytes).bytes.length)
          (copyNameW name maxValueNameBytes).bytes,
        memcpy (64 + (copyNameW key maxKeyPathBytes).bytes.length +
          (copyNameW name maxValueNameBytes).bytes.length) value.carried] := by
  have hle := copyNameW_le key maxKeyPathBytes
  have hcap : maxKeyPathBytes = 1024 := rfl
  have hoff : (UInt16.ofNat 64).toNat = 64 := rfl
  have hvoff : (UInt16.ofNat (64 + (copyNameW key maxKeyPathBytes).bytes.length)).toNat =
      64 + (copyNameW key maxKeyPathBytes).bytes.length :=
    UInt16.toNat_ofNat_of_lt (by simp only [UInt16.size]; omega)
  simp only [emitRegistrySetValue, copyNameW_truncated, registrySetValueFixed_eq,
    RegistrySetValueRecord.keyPathOffset_off, RegistrySetValueRecord.keyPathBytes_off,
    RegistrySetValueRecord.valueNameOffset_off, RegistrySetValueRecord.valueNameBytes_off,
    RegistrySetValueRecord.dataType_off, RegistrySetValueRecord.dataBytes_off, hoff, hvoff]
  -- The data region is still zero when the copy is made.
  rw [writeAll_append, writeAll_copyTo, ← writeAll_store]
  · exact ((((headed_allocRecord (by omega)).orTruncFlags _ _).orTruncFlags _ _).orTruncFlags _ _).emitted
      (by simp) (by simp [Laid, ushortAt, ulongAt, memcpy, value.carried_length])
  · refine Holds.writeAll_above 48 (orTruncFlags_holds (orTruncFlags_holds (orTruncFlags_holds
      (allocRecord_zero _ _ _ _ (by omega) (by omega)) (by omega) _ _) (by omega) _ _) (by omega) _ _)
      ?_ le_rfl
    simp [Laid, ushortAt, ulongAt, memcpy]

theorem conveys_emitRegistrySetValue (key name : Option UnicodeString) (dataType : UInt32)
    (value : ValueData) (pid : UInt32) (identity : UInt64) (stamp : Stamp) :
    Conveys (emitRegistrySetValue key name dataType value pid identity stamp)
      ⟨.registrySetValue, pid, stamp.sequence, stamp.time, identity,
        truncNone ||| flagIf (isCut maxKeyPathBytes key) truncKeyPath |||
          flagIf (isCut maxValueNameBytes name) truncValueName |||
          flagIf (maxValueDataBytes < value.dataLength.toNat) truncData,
        .registrySetValue (cappedText maxKeyPathBytes key) (cappedText maxValueNameBytes name) dataType
          value.carried⟩ := by
  have hle := copyNameW_le key maxKeyPathBytes
  have hle' := copyNameW_le name maxValueNameBytes
  have hdle : value.copiedBytes ≤ 128 := Nat.min_le_right _ _
  have hcap : maxKeyPathBytes = 1024 := rfl
  have hcap' : maxValueNameBytes = 512 := rfl
  have hdnat : (UInt32.ofNat value.copiedBytes).toNat = value.copiedBytes :=
    UInt32.toNat_ofNat_of_lt (by simp only [UInt32.size]; omega)
  refine (emitted_registrySetValue key name dataType value pid identity stamp).conveys
    (by simp; omega) rfl (by simp [minSize]; omega) fun hw => ?_
  simp only [List.forall_mem_cons, ushortAt, ulongAt, memcpy] at hw
  obtain ⟨hkoff, hkbytes, hvoff', hvbytes, htype, hdbytes, hkey, hname, hdata, -⟩ := hw
  have hkeyText := stringAt_copy fun _ => hkey
  have hnameText := stringAt_copy fun _ => hname
  have hrange := getRange_of_holds hdata
  rw [value.carried_length] at hrange
  simp only [payloadFields, parseRegistrySetValue, extentAt_of_word (n := 64) (by omega) hkoff,
    extentAt_of_word (by omega) hkbytes, extentAt_of_word (by omega) hvoff',
    extentAt_of_word (by omega) hvbytes, u32At_of_word htype, u32At_of_word hdbytes, hdnat, bind,
    Except.bind, hkeyText, hnameText, hrange]
  rfl

/-! ## All emissions -/

/-- The cap of the pre-rename callback and the routine's own cap are the same cap. -/
theorem cappedText_captureOldPath (oldName : Option UnicodeString) :
    cappedText maxFilePathBytes (oldName.map captureOldPath) = cappedText maxFilePathBytes oldName := by
  cases oldName with
  | none => rfl
  | some name =>
    have hcopy := unitsOf_copyNameW (some name) maxFilePathBytes
    rw [copyNameW_some] at hcopy
    have hunits : unitsOf (captureOldPath name).bytes = cappedUnits maxFilePathBytes (some name) := hcopy
    have hlen : (cappedUnits maxFilePathBytes (some name)).length ≤ maxFilePathBytes / 2 := by
      rw [cappedUnits, List.length_take]
      exact Nat.min_le_left _ _
    rw [cappedText, cappedText, Option.map_some, cappedUnits, hunits, List.take_of_length_le hlen]

theorem Emission.conveys (e : Emission) (stamp : Stamp) :
    Conveys (e.record stamp) (e.expected stamp) := by
  cases e with
  | processCreated pid parent cmd image => exact conveys_emitProcessCreated pid parent cmd image stamp
  | processExited pid createTime => exact conveys_emitProcessExited pid createTime stamp
  | threadCreated pid tid identity => exact conveys_emitThread true pid tid identity stamp
  | threadExited pid tid identity => exact conveys_emitThread false pid tid identity stamp
  | imageLoaded pid base size name identity =>
    exact conveys_emitImageLoaded pid base size name identity stamp
  | registryKeyCreated path pid identity =>
    exact conveys_emitRegistryKeyRecord path identity rfl rfl fun _ _ => rfl
  | registryKeyDeleted path pid identity =>
    exact conveys_emitRegistryKeyRecord path identity rfl rfl fun _ _ => rfl
  | registrySetValue key name dataType value pid identity =>
    exact conveys_emitRegistrySetValue key name dataType value pid identity stamp
  | fileCreated path pid identity => exact conveys_emitFileRecord path identity rfl rfl fun _ _ => rfl
  | fileWritten path offset length pid identity =>
    exact conveys_emitFileWritten path offset length pid identity stamp
  | fileCleanedUp path pid identity => exact conveys_emitFileRecord path identity rfl rfl fun _ _ => rfl
  | fileDeleted path pid identity => exact conveys_emitFileRecord path identity rfl rfl fun _ _ => rfl
  | fileRenamed oldName newPath pid identity =>
    have hrenamed := conveys_emitFileRenamed (oldName.map captureOldPath) newPath pid identity stamp
    rwa [cappedText_captureOldPath] at hrenamed
  | dropCaptured path stored method pid identity =>
    exact conveys_emitDropCaptured path stored method pid identity stamp
  | behaviorCall pid createTime tid api arg0 arg1 arg2 arg3 =>
    exact conveys_emitBehaviorCall pid createTime tid api arg0 arg1 arg2 arg3 stamp
  | protectionEvent opener openerId target targetTime isThread original stripped =>
    exact conveys_emitStrippedEvent opener openerId target targetTime isThread original stripped stamp

end SecOutfall.Wire
