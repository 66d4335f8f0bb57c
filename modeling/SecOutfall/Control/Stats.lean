import SecOutfall.Injection.Engine
import SecOutfall.Wire.Decode
import SecOutfall.Wire.Records

/-! The statistics query: `IOCTL_SECOUTFALL_GET_STATS` against `decode_driver_stats`
(`crates/agent/src/ports/driven/driver_control.rs`).

The handler assigns the fields of `DriverStats` one by one into the buffer it shares with the
caller. It never assigns `ProtectionsStripped` and `ProtectionTrusted`, so these two come back as
the caller, or the pool, left them. -/
namespace SecOutfall.Control
open CLayout Bytes Wire
set_option autoImplicit false
set_option maxRecDepth 2000

/-! ## The struct -/

namespace DriverStats

def fields : List CField :=
  [ushort, uchar, uchar, ulong, ulong, ulong, ulong, ulong, ulong] ++ List.replicate 22 ulong64

def magic : ℕ := offsetof fields 0
def version : ℕ := offsetof fields 1
def reserved : ℕ := offsetof fields 2
def queueDepth : ℕ := offsetof fields 3
def queueCapacity : ℕ := offsetof fields 4
def fileQueueDepth : ℕ := offsetof fields 5
def fileQueueCapacity : ℕ := offsetof fields 6
def dropsQueueDepth : ℕ := offsetof fields 7
def dropsQueueCapacity : ℕ := offsetof fields 8
def sequence : ℕ := offsetof fields 9
def queueOverwritten : ℕ := offsetof fields 10
def allocFailures : ℕ := offsetof fields 11
def oversizedSkipped : ℕ := offsetof fields 12
def identityMisses : ℕ := offsetof fields 13
def filesOverwritten : ℕ := offsetof fields 14
def fileNameQueriesFailed : ℕ := offsetof fields 15
def noiseWritesSkipped : ℕ := offsetof fields 16
def dropsStopped : ℕ := offsetof fields 17
def dropsMissedBusy : ℕ := offsetof fields 18
def dropsLinkFailed : ℕ := offsetof fields 19
def dropsCopyFailed : ℕ := offsetof fields 20
def injectionsQueued : ℕ := offsetof fields 21
def injectionsFailed : ℕ := offsetof fields 22
def sensorsRegistered : ℕ := offsetof fields 23
def sensorsRejected : ℕ := offsetof fields 24
def protectionsStripped : ℕ := offsetof fields 25
def protectionTrusted : ℕ := offsetof fields 26
def sensorEventsDrained : ℕ := offsetof fields 27
def sensorEventsDropped : ℕ := offsetof fields 28
def sensorRingsActive : ℕ := offsetof fields 29
def sensorRingsSkipped : ℕ := offsetof fields 30

@[simp] theorem magic_off : magic = 0 := rfl
@[simp] theorem version_off : version = 2 := rfl
@[simp] theorem reserved_off : reserved = 3 := rfl
@[simp] theorem queueDepth_off : queueDepth = 4 := rfl
@[simp] theorem queueCapacity_off : queueCapacity = 8 := rfl
@[simp] theorem fileQueueDepth_off : fileQueueDepth = 12 := rfl
@[simp] theorem fileQueueCapacity_off : fileQueueCapacity = 16 := rfl
@[simp] theorem dropsQueueDepth_off : dropsQueueDepth = 20 := rfl
@[simp] theorem dropsQueueCapacity_off : dropsQueueCapacity = 24 := rfl
@[simp] theorem sequence_off : sequence = 32 := rfl
@[simp] theorem queueOverwritten_off : queueOverwritten = 40 := rfl
@[simp] theorem allocFailures_off : allocFailures = 48 := rfl
@[simp] theorem oversizedSkipped_off : oversizedSkipped = 56 := rfl
@[simp] theorem identityMisses_off : identityMisses = 64 := rfl
@[simp] theorem filesOverwritten_off : filesOverwritten = 72 := rfl
@[simp] theorem fileNameQueriesFailed_off : fileNameQueriesFailed = 80 := rfl
@[simp] theorem noiseWritesSkipped_off : noiseWritesSkipped = 88 := rfl
@[simp] theorem dropsStopped_off : dropsStopped = 96 := rfl
@[simp] theorem dropsMissedBusy_off : dropsMissedBusy = 104 := rfl
@[simp] theorem dropsLinkFailed_off : dropsLinkFailed = 112 := rfl
@[simp] theorem dropsCopyFailed_off : dropsCopyFailed = 120 := rfl
@[simp] theorem injectionsQueued_off : injectionsQueued = 128 := rfl
@[simp] theorem injectionsFailed_off : injectionsFailed = 136 := rfl
@[simp] theorem sensorsRegistered_off : sensorsRegistered = 144 := rfl
@[simp] theorem sensorsRejected_off : sensorsRejected = 152 := rfl
@[simp] theorem protectionsStripped_off : protectionsStripped = 160 := rfl
@[simp] theorem protectionTrusted_off : protectionTrusted = 168 := rfl
@[simp] theorem sensorEventsDrained_off : sensorEventsDrained = 176 := rfl
@[simp] theorem sensorEventsDropped_off : sensorEventsDropped = 184 := rfl
@[simp] theorem sensorRingsActive_off : sensorRingsActive = 192 := rfl
@[simp] theorem sensorRingsSkipped_off : sensorRingsSkipped = 200 := rfl
@[simp] theorem sizeof_eq : sizeof fields = 208 := rfl

end DriverStats

/-! ## The handler -/

inductive NtStatus where
  | success | bufferTooSmall | invalidParameter | insufficientResources
  deriving DecidableEq, Repr

/-- What the handler reads of `g_Data`: queue extents, counters and the ledger. -/
structure Globals where
  queueDepth : UInt32
  queueCapacity : UInt32
  fileQueueDepth : UInt32
  fileQueueCapacity : UInt32
  dropsQueueDepth : UInt32
  dropsQueueCapacity : UInt32
  sequence : UInt64
  queueOverwritten : UInt64
  allocFailures : UInt64
  oversizedSkipped : UInt64
  identityMisses : UInt64
  filesOverwritten : UInt64
  fileNameQueriesFailed : UInt64
  noiseWritesSkipped : UInt64
  dropsStopped : UInt64
  dropsMissedBusy : UInt64
  dropsLinkFailed : UInt64
  dropsCopyFailed : UInt64
  injectionsQueued : UInt64
  injectionsFailed : UInt64
  sensorsRegistered : UInt64
  sensorsRejected : UInt64
  protectionsStripped : UInt64
  protectionTrusted : UInt64
  sensorEventsDrained : UInt64
  sensorEventsDropped : UInt64
  sensorRingsSkipped : UInt64
  ledger : List Injection.InjectionEntry

/-- A `METHOD_BUFFERED` request: the I/O manager's buffer holds at least the output extent, filled
with the caller's input and, behind that, whatever the pool had there. -/
structure BufferedIrp where
  outputBufferLength : ℕ
  systemBuffer : List UInt8
  outputBufferLength_le : outputBufferLength ≤ systemBuffer.length

/-- The assignments in front of the ledger walk, in program order. -/
def statsWrites (g : Globals) : List Write :=
  [ushortAt DriverStats.magic wireMagic,
   ucharAt DriverStats.version wireVersion,
   ucharAt DriverStats.reserved 0,
   ulongAt DriverStats.queueDepth g.queueDepth,
   ulongAt DriverStats.queueCapacity g.queueCapacity,
   ulongAt DriverStats.fileQueueDepth g.fileQueueDepth,
   ulongAt DriverStats.fileQueueCapacity g.fileQueueCapacity,
   ulong64At DriverStats.sequence g.sequence,
   ulong64At DriverStats.queueOverwritten g.queueOverwritten,
   ulong64At DriverStats.allocFailures g.allocFailures,
   ulong64At DriverStats.oversizedSkipped g.oversizedSkipped,
   ulong64At DriverStats.identityMisses g.identityMisses,
   ulong64At DriverStats.filesOverwritten g.filesOverwritten,
   ulong64At DriverStats.fileNameQueriesFailed g.fileNameQueriesFailed,
   ulong64At DriverStats.noiseWritesSkipped g.noiseWritesSkipped,
   ulongAt DriverStats.dropsQueueDepth g.dropsQueueDepth,
   ulongAt DriverStats.dropsQueueCapacity g.dropsQueueCapacity,
   ulong64At DriverStats.dropsStopped g.dropsStopped,
   ulong64At DriverStats.dropsMissedBusy g.dropsMissedBusy,
   ulong64At DriverStats.dropsLinkFailed g.dropsLinkFailed,
   ulong64At DriverStats.dropsCopyFailed g.dropsCopyFailed,
   ulong64At DriverStats.injectionsQueued g.injectionsQueued,
   ulong64At DriverStats.injectionsFailed g.injectionsFailed,
   ulong64At DriverStats.sensorsRegistered g.sensorsRegistered,
   ulong64At DriverStats.sensorsRejected g.sensorsRejected,
   ulong64At DriverStats.sensorEventsDrained g.sensorEventsDrained,
   ulong64At DriverStats.sensorEventsDropped g.sensorEventsDropped,
   ulong64At DriverStats.sensorRingsSkipped g.sensorRingsSkipped,
   ulong64At DriverStats.sensorRingsActive 0]

/-- `if (entry->State == Registered) ++stats->SensorRingsActive;`. -/
def countActive (stats : List UInt8) (entry : Injection.InjectionEntry) : List UInt8 :=
  if entry.state = .registered then
    store stats DriverStats.sensorRingsActive
      (leBytes 8 (leValue (slice stats DriverStats.sensorRingsActive 8) + 1))
  else stats

def getStats (g : Globals) (irp : BufferedIrp) : NtStatus × List UInt8 :=
  if irp.outputBufferLength < sizeof DriverStats.fields then (.bufferTooSmall, [])
  else
    let stats := g.ledger.foldl countActive (writeAll irp.systemBuffer (statsWrites g))
    (.success, stats.take (sizeof DriverStats.fields))

/-! ## The decoder -/

structure DriverStatsSnapshot where
  queueDepth : UInt32
  queueCapacity : UInt32
  fileQueueDepth : UInt32
  fileQueueCapacity : UInt32
  dropsQueueDepth : UInt32
  dropsQueueCapacity : UInt32
  sequence : UInt64
  queueOverwritten : UInt64
  allocFailures : UInt64
  oversizedSkipped : UInt64
  identityMisses : UInt64
  filesOverwritten : UInt64
  fileNameQueriesFailed : UInt64
  noiseWritesSkipped : UInt64
  dropsStopped : UInt64
  dropsMissedBusy : UInt64
  dropsLinkFailed : UInt64
  dropsCopyFailed : UInt64
  injectionsQueued : UInt64
  injectionsFailed : UInt64
  sensorsRegistered : UInt64
  sensorsRejected : UInt64
  protectionsStripped : UInt64
  protectionTrusted : UInt64
  sensorEventsDrained : UInt64
  sensorEventsDropped : UInt64
  sensorRingsActive : UInt64
  sensorRingsSkipped : UInt64
  deriving DecidableEq, Repr

def statsTruncated : String := "stats reply truncated"

def statsU16At (bytes : List UInt8) (pos : ℕ) : Except String UInt16 :=
  match getRange bytes pos (pos + 2) with
  | some b => .ok (.ofNat (leValue b))
  | none => .error statsTruncated

def statsField (bytes : List UInt8) (pos : ℕ) : Except String UInt32 :=
  match getRange bytes pos (pos + 4) with
  | some b => .ok (.ofNat (leValue b))
  | none => .error statsTruncated

def statsField64 (bytes : List UInt8) (pos : ℕ) : Except String UInt64 :=
  match getRange bytes pos (pos + 8) with
  | some b => .ok (.ofNat (leValue b))
  | none => .error statsTruncated

def decodeDriverStats (bytes : List UInt8) : Except String DriverStatsSnapshot := do
  if bytes.length < 208 then
    throw ("stats reply too short: " ++ toString bytes.length ++ " < 208")
  let magic ← statsU16At bytes 0
  if magic ≠ 0x5346 ∨ bytes[2]? ≠ some 2 then throw "stats reply: bad magic/version"
  let queueDepth ← statsField bytes 4
  let queueCapacity ← statsField bytes 8
  let fileQueueDepth ← statsField bytes 12
  let fileQueueCapacity ← statsField bytes 16
  let dropsQueueDepth ← statsField bytes 20
  let dropsQueueCapacity ← statsField bytes 24
  let sequence ← statsField64 bytes 32
  let queueOverwritten ← statsField64 bytes 40
  let allocFailures ← statsField64 bytes 48
  let oversizedSkipped ← statsField64 bytes 56
  let identityMisses ← statsField64 bytes 64
  let filesOverwritten ← statsField64 bytes 72
  let fileNameQueriesFailed ← statsField64 bytes 80
  let noiseWritesSkipped ← statsField64 bytes 88
  let dropsStopped ← statsField64 bytes 96
  let dropsMissedBusy ← statsField64 bytes 104
  let dropsLinkFailed ← statsField64 bytes 112
  let dropsCopyFailed ← statsField64 bytes 120
  let injectionsQueued ← statsField64 bytes 128
  let injectionsFailed ← statsField64 bytes 136
  let sensorsRegistered ← statsField64 bytes 144
  let sensorsRejected ← statsField64 bytes 152
  let protectionsStripped ← statsField64 bytes 160
  let protectionTrusted ← statsField64 bytes 168
  let sensorEventsDrained ← statsField64 bytes 176
  let sensorEventsDropped ← statsField64 bytes 184
  let sensorRingsActive ← statsField64 bytes 192
  let sensorRingsSkipped ← statsField64 bytes 200
  return ⟨queueDepth, queueCapacity, fileQueueDepth, fileQueueCapacity, dropsQueueDepth,
    dropsQueueCapacity, sequence, queueOverwritten, allocFailures, oversizedSkipped,
    identityMisses, filesOverwritten, fileNameQueriesFailed, noiseWritesSkipped, dropsStopped,
    dropsMissedBusy, dropsLinkFailed, dropsCopyFailed, injectionsQueued, injectionsFailed,
    sensorsRegistered, sensorsRejected, protectionsStripped, protectionTrusted,
    sensorEventsDrained, sensorEventsDropped, sensorRingsActive, sensorRingsSkipped⟩

/-! ## Reading the reply -/

theorem statsU16At_of_holds {bytes : List UInt8} {pos : ℕ} {v : UInt16}
    (h : Holds bytes pos (leBytes 2 v.toNat)) : statsU16At bytes pos = .ok v := by
  have hget := getRange_of_holds h
  rw [leBytes_length] at hget
  simp [statsU16At, hget, leValue_leBytes]

theorem statsField_of_holds {bytes : List UInt8} {pos : ℕ} {v : UInt32}
    (h : Holds bytes pos (leBytes 4 v.toNat)) : statsField bytes pos = .ok v := by
  have hget := getRange_of_holds h
  rw [leBytes_length] at hget
  simp [statsField, hget, leValue_leBytes]

theorem statsField64_of_holds {bytes : List UInt8} {pos : ℕ} {v : UInt64}
    (h : Holds bytes pos (leBytes 8 v.toNat)) : statsField64 bytes pos = .ok v := by
  have hget := getRange_of_holds h
  rw [leBytes_length] at hget
  simp [statsField64, hget, leValue_leBytes]

/-- The ULONG64 a buffer holds at an offset. -/
def ulong64Of (buf : List UInt8) (off : ℕ) : UInt64 := .ofNat (leValue (slice buf off 8))

/-! ## The ledger walk -/

def Globals.ringsActive (g : Globals) : ℕ := g.ledger.countP fun entry => entry.state = .registered

theorem Holds.countActive {stats : List UInt8} {off : ℕ} {bs : List UInt8} (h : Holds stats off bs)
    (hd : off + bs.length ≤ DriverStats.sensorRingsActive ∨ DriverStats.sensorRingsActive + 8 ≤ off)
    (ledger : List Injection.InjectionEntry) : Holds (ledger.foldl countActive stats) off bs := by
  induction ledger generalizing stats with
  | nil => exact h
  | cons entry ledger ih =>
    rw [List.foldl_cons]
    apply ih
    unfold Control.countActive
    split
    · exact h.store (by simpa using hd)
    · exact h

theorem holds_ringsActive {stats : List UInt8} {n : ℕ}
    (h : Holds stats DriverStats.sensorRingsActive (leBytes 8 n))
    (ledger : List Injection.InjectionEntry) :
    Holds (ledger.foldl countActive stats) DriverStats.sensorRingsActive
      (leBytes 8 (n + ledger.countP fun entry => entry.state = .registered)) := by
  induction ledger generalizing stats n with
  | nil => exact h
  | cons entry ledger ih =>
    rw [List.foldl_cons, countActive]
    by_cases hr : entry.state = .registered
    · have hread : slice stats DriverStats.sensorRingsActive 8 = leBytes 8 n := by
        simpa using h.2
      rw [if_pos hr, hread, leValue_leBytes, List.countP_cons_of_pos (by simpa using hr)]
      have hnext : leBytes 8 (n % 256 ^ 8 + 1) = leBytes 8 (n + 1) := by
        rw [← leBytes_mod 8 (n % 256 ^ 8 + 1), ← leBytes_mod 8 (n + 1), Nat.mod_add_mod]
      have hfits : DriverStats.sensorRingsActive + (leBytes 8 (n + 1)).length ≤ stats.length := by
        simpa using h.1
      have hstore := ih (holds_store hfits)
      rw [hnext]
      rwa [add_right_comm, add_assoc] at hstore
    · rw [if_neg hr, List.countP_cons_of_neg (by simpa using hr)]
      exact ih h

/-! ## The round trip -/

/-- The snapshot of all counters, with these values for the two protection counters. -/
def Globals.snapshotWith (g : Globals) (protectionsStripped protectionTrusted : UInt64) :
    DriverStatsSnapshot where
  queueDepth := g.queueDepth
  queueCapacity := g.queueCapacity
  fileQueueDepth := g.fileQueueDepth
  fileQueueCapacity := g.fileQueueCapacity
  dropsQueueDepth := g.dropsQueueDepth
  dropsQueueCapacity := g.dropsQueueCapacity
  sequence := g.sequence
  queueOverwritten := g.queueOverwritten
  allocFailures := g.allocFailures
  oversizedSkipped := g.oversizedSkipped
  identityMisses := g.identityMisses
  filesOverwritten := g.filesOverwritten
  fileNameQueriesFailed := g.fileNameQueriesFailed
  noiseWritesSkipped := g.noiseWritesSkipped
  dropsStopped := g.dropsStopped
  dropsMissedBusy := g.dropsMissedBusy
  dropsLinkFailed := g.dropsLinkFailed
  dropsCopyFailed := g.dropsCopyFailed
  injectionsQueued := g.injectionsQueued
  injectionsFailed := g.injectionsFailed
  sensorsRegistered := g.sensorsRegistered
  sensorsRejected := g.sensorsRejected
  protectionsStripped := protectionsStripped
  protectionTrusted := protectionTrusted
  sensorEventsDrained := g.sensorEventsDrained
  sensorEventsDropped := g.sensorEventsDropped
  sensorRingsActive := .ofNat g.ringsActive
  sensorRingsSkipped := g.sensorRingsSkipped

/-- Every field as the driver has it when the request is served. -/
def Globals.snapshot (g : Globals) : DriverStatsSnapshot :=
  g.snapshotWith g.protectionsStripped g.protectionTrusted

theorem statsWrites_span (g : Globals) : (statsWrites g).map Write.span =
    [(0, 2), (2, 3), (3, 4), (4, 8), (8, 12), (12, 16), (16, 20), (32, 40), (40, 48), (48, 56),
     (56, 64), (64, 72), (72, 80), (80, 88), (88, 96), (20, 24), (24, 28), (96, 104), (104, 112),
     (112, 120), (120, 128), (128, 136), (136, 144), (144, 152), (152, 160), (176, 184),
     (184, 192), (200, 208), (192, 200)] := rfl

section
variable (g : Globals) (irp : BufferedIrp)

theorem holds_statsWrites (h : sizeof DriverStats.fields ≤ irp.outputBufferLength) :
    ∀ w ∈ statsWrites g, Holds (writeAll irp.systemBuffer (statsWrites g)) w.off w.bytes := by
  have hlen : 208 ≤ irp.systemBuffer.length := le_trans h irp.outputBufferLength_le
  apply holds_writeAll_of_pairwise
  · rw [statsWrites_span]
    decide
  · have hend : ∀ a ∈ (statsWrites g).map Write.span, a.2 ≤ 208 := by
      rw [statsWrites_span]
      decide
    intro a ha
    exact le_trans (hend a ha) hlen

theorem getStats_reply (h : sizeof DriverStats.fields ≤ irp.outputBufferLength) :
    (getStats g irp).2 =
      (g.ledger.foldl countActive (writeAll irp.systemBuffer (statsWrites g))).take 208 := by
  rw [getStats, if_neg (Nat.not_lt.mpr h)]
  rfl

/-- A region the handler's assignments leave holding `bs` is still so in the reply. -/
theorem holds_getStats (h : sizeof DriverStats.fields ≤ irp.outputBufferLength) {off : ℕ}
    {bs : List UInt8} (hb : Holds (writeAll irp.systemBuffer (statsWrites g)) off bs)
    (hd : off + bs.length ≤ 192 ∨ 200 ≤ off) (hend : off + bs.length ≤ 208) :
    Holds (getStats g irp).2 off bs := by
  rw [getStats_reply g irp h]
  exact (Holds.countActive hb hd g.ledger).take hend

theorem holds_written (h : sizeof DriverStats.fields ≤ irp.outputBufferLength) {w : Write}
    (hw : w ∈ statsWrites g) (hd : w.off + w.bytes.length ≤ 192 ∨ 200 ≤ w.off)
    (hend : w.off + w.bytes.length ≤ 208) : Holds (getStats g irp).2 w.off w.bytes :=
  holds_getStats g irp h (holds_statsWrites g irp h w hw) hd hend

theorem holds_getStats_ringsActive (h : sizeof DriverStats.fields ≤ irp.outputBufferLength) :
    Holds (getStats g irp).2 DriverStats.sensorRingsActive
      (leBytes 8 (UInt64.ofNat g.ringsActive).toNat) := by
  have hzero := holds_statsWrites g irp h (ulong64At DriverStats.sensorRingsActive 0)
    (by simp [statsWrites])
  have hcount := holds_ringsActive hzero g.ledger
  rw [UInt64.toNat_zero, Nat.zero_add] at hcount
  rw [getStats_reply g irp h, UInt64.toNat_ofNat', show (2 : ℕ) ^ 64 = 256 ^ 8 by norm_num,
    leBytes_mod]
  exact hcount.take (by simp)

/-- No assignment touches the two words between `SensorsRejected` and `SensorEventsDrained`. -/
theorem holds_getStats_unwritten (h : sizeof DriverStats.fields ≤ irp.outputBufferLength) (off : ℕ)
    (hlow : 160 ≤ off) (hhigh : off + 8 ≤ 176) :
    Holds (getStats g irp).2 off (leBytes 8 (ulong64Of irp.systemBuffer off).toNat) := by
  have hlen : 208 ≤ irp.systemBuffer.length := le_trans h irp.outputBufferLength_le
  have hslice : (slice irp.systemBuffer off 8).length = 8 := by
    simp only [slice, List.length_take, List.length_drop]
    omega
  have hword : leBytes 8 (ulong64Of irp.systemBuffer off).toNat = slice irp.systemBuffer off 8 := by
    have hle := leBytes_leValue (slice irp.systemBuffer off 8)
    rw [hslice] at hle
    rw [ulong64Of, UInt64.toNat_ofNat', show (2 : ℕ) ^ 64 = 256 ^ 8 by norm_num, leBytes_mod, hle]
  have hbefore : Holds irp.systemBuffer off (slice irp.systemBuffer off 8) :=
    holds_slice (by omega)
  have hspans : ∀ a ∈ (statsWrites g).map Write.span, 176 ≤ a.1 ∨ a.2 ≤ 160 := by
    rw [statsWrites_span]
    decide
  rw [hword]
  apply holds_getStats g irp h (hbefore.writeAll_of_apart fun w hw => ?_) (by omega) (by omega)
  have hw' := hspans w.span (List.mem_map_of_mem hw)
  simp only [Write.span] at hw'
  omega

theorem statsField_written (h : sizeof DriverStats.fields ≤ irp.outputBufferLength) {v : UInt32}
    (off : ℕ) (hw : ulongAt off v ∈ statsWrites g) (hend : off + 4 ≤ 192) :
    statsField (getStats g irp).2 off = .ok v := by
  apply statsField_of_holds
  exact holds_written g irp h hw (Or.inl (by simpa [ulongAt] using hend))
    (by simp only [ulongAt, leBytes_length]; omega)

theorem statsField64_written (h : sizeof DriverStats.fields ≤ irp.outputBufferLength) {v : UInt64}
    (off : ℕ) (hw : ulong64At off v ∈ statsWrites g) (hd : off + 8 ≤ 192 ∨ off = 200) :
    statsField64 (getStats g irp).2 off = .ok v := by
  apply statsField64_of_holds
  exact holds_written g irp h hw (by simp only [ulong64At, leBytes_length]; omega)
    (by simp only [ulong64At, leBytes_length]; omega)

/-- What the agent reads: every counter the handler assigns, and two words of the old buffer. -/
theorem decode_getStats (h : sizeof DriverStats.fields ≤ irp.outputBufferLength) :
    decodeDriverStats (getStats g irp).2 =
      .ok (g.snapshotWith (ulong64Of irp.systemBuffer DriverStats.protectionsStripped)
        (ulong64Of irp.systemBuffer DriverStats.protectionTrusted)) := by
  have hlen : ¬ (getStats g irp).2.length < 208 := by
    have hlast := (holds_written g irp h
      (w := ulong64At DriverStats.sensorRingsSkipped g.sensorRingsSkipped)
      (by simp [statsWrites]) (by simp [ulong64At]) (by simp [ulong64At])).1
    simp only [ulong64At, leBytes_length, DriverStats.sensorRingsSkipped_off] at hlast
    omega
  have hmagic : statsU16At (getStats g irp).2 0 = .ok 0x5346 :=
    statsU16At_of_holds (holds_written g irp h (w := ushortAt 0 wireMagic)
      (by simp [statsWrites]) (by simp [ushortAt]) (by simp [ushortAt]))
  have hversion : (getStats g irp).2[2]? = some 2 :=
    (holds_written g irp h (w := ucharAt 2 wireVersion)
      (by simp [statsWrites]) (by simp [ucharAt]) (by simp [ucharAt])).getElem? (i := 0) (by decide)
  have hactive := statsField64_of_holds (holds_getStats_ringsActive g irp h)
  have hstripped := statsField64_of_holds
    (holds_getStats_unwritten g irp h 160 (by decide) (by decide))
  have htrusted := statsField64_of_holds
    (holds_getStats_unwritten g irp h 168 (by decide) (by decide))
  rw [DriverStats.sensorRingsActive_off] at hactive
  simp only [decodeDriverStats, hlen, hmagic, hversion, hactive, hstripped, htrusted,
    statsField_written g irp h (v := g.queueDepth) 4 (by simp [statsWrites]) (by decide),
    statsField_written g irp h (v := g.queueCapacity) 8 (by simp [statsWrites]) (by decide),
    statsField_written g irp h (v := g.fileQueueDepth) 12 (by simp [statsWrites]) (by decide),
    statsField_written g irp h (v := g.fileQueueCapacity) 16 (by simp [statsWrites]) (by decide),
    statsField_written g irp h (v := g.dropsQueueDepth) 20 (by simp [statsWrites]) (by decide),
    statsField_written g irp h (v := g.dropsQueueCapacity) 24 (by simp [statsWrites]) (by decide),
    statsField64_written g irp h (v := g.sequence) 32 (by simp [statsWrites]) (by decide),
    statsField64_written g irp h (v := g.queueOverwritten) 40 (by simp [statsWrites]) (by decide),
    statsField64_written g irp h (v := g.allocFailures) 48 (by simp [statsWrites]) (by decide),
    statsField64_written g irp h (v := g.oversizedSkipped) 56 (by simp [statsWrites]) (by decide),
    statsField64_written g irp h (v := g.identityMisses) 64 (by simp [statsWrites]) (by decide),
    statsField64_written g irp h (v := g.filesOverwritten) 72 (by simp [statsWrites]) (by decide),
    statsField64_written g irp h (v := g.fileNameQueriesFailed) 80 (by simp [statsWrites]) (by decide),
    statsField64_written g irp h (v := g.noiseWritesSkipped) 88 (by simp [statsWrites]) (by decide),
    statsField64_written g irp h (v := g.dropsStopped) 96 (by simp [statsWrites]) (by decide),
    statsField64_written g irp h (v := g.dropsMissedBusy) 104 (by simp [statsWrites]) (by decide),
    statsField64_written g irp h (v := g.dropsLinkFailed) 112 (by simp [statsWrites]) (by decide),
    statsField64_written g irp h (v := g.dropsCopyFailed) 120 (by simp [statsWrites]) (by decide),
    statsField64_written g irp h (v := g.injectionsQueued) 128 (by simp [statsWrites]) (by decide),
    statsField64_written g irp h (v := g.injectionsFailed) 136 (by simp [statsWrites]) (by decide),
    statsField64_written g irp h (v := g.sensorsRegistered) 144 (by simp [statsWrites]) (by decide),
    statsField64_written g irp h (v := g.sensorsRejected) 152 (by simp [statsWrites]) (by decide),
    statsField64_written g irp h (v := g.sensorEventsDrained) 176 (by simp [statsWrites]) (by decide),
    statsField64_written g irp h (v := g.sensorEventsDropped) 184 (by simp [statsWrites]) (by decide),
    statsField64_written g irp h (v := g.sensorRingsSkipped) 200 (by simp [statsWrites]) (by decide)]
  rfl

theorem snapshotWith_inj {a b a' b' : UInt64} :
    g.snapshotWith a b = g.snapshotWith a' b' ↔ a = a' ∧ b = b' := by
  constructor
  · intro h
    injections
    exact ⟨by assumption, by assumption⟩
  · rintro ⟨rfl, rfl⟩
    rfl

/-- The reply decodes to the driver's counters exactly when the old buffer already holds the two
protection counters, and two replies agree exactly when their old buffers agree on these words. -/
theorem stats_round_trip_iff (g : Globals) (irp irp' : BufferedIrp)
    (h : sizeof DriverStats.fields ≤ irp.outputBufferLength)
    (h' : sizeof DriverStats.fields ≤ irp'.outputBufferLength) :
    (decodeDriverStats (getStats g irp).2 = .ok g.snapshot ↔
      ulong64Of irp.systemBuffer DriverStats.protectionsStripped = g.protectionsStripped ∧
      ulong64Of irp.systemBuffer DriverStats.protectionTrusted = g.protectionTrusted) ∧
    (decodeDriverStats (getStats g irp).2 = decodeDriverStats (getStats g irp').2 ↔
      ulong64Of irp.systemBuffer DriverStats.protectionsStripped =
        ulong64Of irp'.systemBuffer DriverStats.protectionsStripped ∧
      ulong64Of irp.systemBuffer DriverStats.protectionTrusted =
        ulong64Of irp'.systemBuffer DriverStats.protectionTrusted) := by
  rw [decode_getStats g irp h, decode_getStats g irp' h', Globals.snapshot]
  simp only [Except.ok.injEq, snapshotWith_inj, and_self]

/-- A driver that has stripped one handle and is otherwise idle. -/
def oneStripped : Globals where
  queueDepth := 0
  queueCapacity := 256
  fileQueueDepth := 0
  fileQueueCapacity := 4096
  dropsQueueDepth := 0
  dropsQueueCapacity := 512
  sequence := 0
  queueOverwritten := 0
  allocFailures := 0
  oversizedSkipped := 0
  identityMisses := 0
  filesOverwritten := 0
  fileNameQueriesFailed := 0
  noiseWritesSkipped := 0
  dropsStopped := 0
  dropsMissedBusy := 0
  dropsLinkFailed := 0
  dropsCopyFailed := 0
  injectionsQueued := 0
  injectionsFailed := 0
  sensorsRegistered := 0
  sensorsRejected := 0
  protectionsStripped := 1
  protectionTrusted := 0
  sensorEventsDrained := 0
  sensorEventsDropped := 0
  sensorRingsSkipped := 0
  ledger := []

def zeroedIrp : BufferedIrp := ⟨208, List.replicate 208 0, by decide⟩

theorem stats_round_trip_zeroed :
    decodeDriverStats (getStats { oneStripped with protectionsStripped := 0 } zeroedIrp).2 =
      .ok { oneStripped with protectionsStripped := 0 }.snapshot :=
  (stats_round_trip_iff { oneStripped with protectionsStripped := 0 } zeroedIrp zeroedIrp
    (by decide) (by decide)).1.mpr (by decide)

theorem stats_stripped_lost :
    ¬ ∀ (g : Globals) (irp : BufferedIrp), sizeof DriverStats.fields ≤ irp.outputBufferLength →
      decodeDriverStats (getStats g irp).2 = .ok g.snapshot := by
  intro h
  have hreply := h oneStripped zeroedIrp (by decide)
  rw [decode_getStats oneStripped zeroedIrp (by decide), Globals.snapshot] at hreply
  simp only [Except.ok.injEq, snapshotWith_inj] at hreply
  exact absurd hreply.1 (by decide)

end

end SecOutfall.Control
