import SecOutfall.Protocol.Envelope

/-! Source telemetry on the wire: `SourceEvent` of `app/event.rs`, and the envelopes of `plugins/wire.rs`. -/
namespace SecOutfall.SourceWire
open Records Protocol Envelope
set_option autoImplicit false

/-! ## Model -/

inductive SourceVariant where
  | processStarted | processStopped | threadStarted | threadStopped | imageLoaded | imageUnloaded
  | registryKeyCreated | registryKeyDeleted | registryKeyOpened | registryKeyClosed | registryKeyQueried
  | registryValueQueried | registryValueSet | fileCreated | fileWritten | fileClosed | fileCleanedUp
  | fileDeleted | fileRenamed | fileFsctl | netTcpConnected | netTcpAccepted | netTcpDisconnected | behaviorCall
  | protectionStripped
  deriving DecidableEq, Repr

/-- `source_variants!`. -/
def sourceVariants : SourceVariant → Schema × EventType
  | .processStarted => (processStartedData, .processStarted)
  | .processStopped => (processStoppedData, .processStopped)
  | .threadStarted => (threadStartedData, .threadStarted)
  | .threadStopped => (threadStoppedData, .threadStopped)
  | .imageLoaded => (imageLoadedData, .imageLoaded)
  | .imageUnloaded => (imageUnloadedData, .imageUnloaded)
  | .registryKeyCreated => (registryKeyData, .registryKeyCreated)
  | .registryKeyDeleted => (registryKeyData, .registryKeyDeleted)
  | .registryKeyOpened => (registryKeyData, .registryKeyOpened)
  | .registryKeyClosed => (registryKeyData, .registryKeyClosed)
  | .registryKeyQueried => (registryKeyData, .registryKeyQueried)
  | .registryValueQueried => (registryValueQueriedData, .registryValueQueried)
  | .registryValueSet => (registryValueSetData, .registryValueSet)
  | .fileCreated => (fileCreatedData, .fileCreated)
  | .fileWritten => (fileWrittenData, .fileWritten)
  | .fileClosed => (fileReleasedData, .fileClosed)
  | .fileCleanedUp => (fileReleasedData, .fileCleanedUp)
  | .fileDeleted => (fileDeletedData, .fileDeleted)
  | .fileRenamed => (fileRenamedData, .fileRenamed)
  | .fileFsctl => (fileFsctlData, .fileFsctl)
  | .netTcpConnected => (tcpConnectionData, .netTcpConnected)
  | .netTcpAccepted => (tcpConnectionData, .netTcpAccepted)
  | .netTcpDisconnected => (tcpConnectionData, .netTcpDisconnected)
  | .behaviorCall => (behaviorCallData, .behaviorCall)
  | .protectionStripped => (protectionStrippedData, .protectionStripped)

structure SourceEvent where
  variant : SourceVariant
  data : (sourceVariants variant).1.Value

def SourceEvent.eventType (source : SourceEvent) : EventType := (sourceVariants source.variant).2

/-- To the payload variant of the same name. -/
def SourceEvent.intoPayload : SourceEvent → Payload
  | ⟨.processStarted, data⟩ => ⟨.processStarted, data⟩
  | ⟨.processStopped, data⟩ => ⟨.processStopped, data⟩
  | ⟨.threadStarted, data⟩ => ⟨.threadStarted, data⟩
  | ⟨.threadStopped, data⟩ => ⟨.threadStopped, data⟩
  | ⟨.imageLoaded, data⟩ => ⟨.imageLoaded, data⟩
  | ⟨.imageUnloaded, data⟩ => ⟨.imageUnloaded, data⟩
  | ⟨.registryKeyCreated, data⟩ => ⟨.registryKeyCreated, data⟩
  | ⟨.registryKeyDeleted, data⟩ => ⟨.registryKeyDeleted, data⟩
  | ⟨.registryKeyOpened, data⟩ => ⟨.registryKeyOpened, data⟩
  | ⟨.registryKeyClosed, data⟩ => ⟨.registryKeyClosed, data⟩
  | ⟨.registryKeyQueried, data⟩ => ⟨.registryKeyQueried, data⟩
  | ⟨.registryValueQueried, data⟩ => ⟨.registryValueQueried, data⟩
  | ⟨.registryValueSet, data⟩ => ⟨.registryValueSet, data⟩
  | ⟨.fileCreated, data⟩ => ⟨.fileCreated, data⟩
  | ⟨.fileWritten, data⟩ => ⟨.fileWritten, data⟩
  | ⟨.fileClosed, data⟩ => ⟨.fileClosed, data⟩
  | ⟨.fileCleanedUp, data⟩ => ⟨.fileCleanedUp, data⟩
  | ⟨.fileDeleted, data⟩ => ⟨.fileDeleted, data⟩
  | ⟨.fileRenamed, data⟩ => ⟨.fileRenamed, data⟩
  | ⟨.fileFsctl, data⟩ => ⟨.fileFsctl, data⟩
  | ⟨.netTcpConnected, data⟩ => ⟨.netTcpConnected, data⟩
  | ⟨.netTcpAccepted, data⟩ => ⟨.netTcpAccepted, data⟩
  | ⟨.netTcpDisconnected, data⟩ => ⟨.netTcpDisconnected, data⟩
  | ⟨.behaviorCall, data⟩ => ⟨.behaviorCall, data⟩
  | ⟨.protectionStripped, data⟩ => ⟨.protectionStripped, data⟩

section
variable {Uuid : Type}

def envelopeFromSource (nowMs : Int64) (seq : UInt64) (studyId : Uuid) (sessionId : UInt32) (source : SourceEvent) :
    Envelope Uuid Payload where
  v := protocolVersion
  eventType := source.eventType
  ts := nowMs
  study := studyId
  session := sessionId
  seq := seq
  data := source.intoPayload

def envelopeRaw (nowMs : Int64) (seq : UInt64) (studyId : Uuid) (sessionId : UInt32) (eventType : EventType)
    (data : Payload) : Envelope Uuid Payload where
  v := protocolVersion
  eventType := eventType
  ts := nowMs
  study := studyId
  session := sessionId
  seq := seq
  data := data

/-! ## Types on the wire -/

theorem intoPayload_eventType (source : SourceEvent) : source.intoPayload.eventType = source.eventType := by
  obtain ⟨variant, data⟩ := source
  cases variant <;> rfl

/-- Every envelope comes back, a source event goes out under the type of its payload, and what is foreign to the
schemas is refused. -/
theorem typed_envelopes (uuid : UuidText Uuid) (ts : Int64) (study : Uuid) (session : UInt32) (seq : UInt64)
    (huuid : uuid.parse (uuid.format study) = some study) :
    (∀ payload : Payload,
      fromValue uuid (serialize uuid (envelopeRaw ts seq study session payload.eventType payload)) =
        .ok (envelopeRaw ts seq study session payload.eventType payload)) ∧
    (∀ source : SourceEvent, (envelopeFromSource ts seq study session source).data.eventType =
      (envelopeFromSource ts seq study session source).eventType) ∧
    ∀ value : Json, (∀ raw, readRaw uuid value = some raw → Foreign raw) →
      ∃ error, fromValue uuid value = .error error := by
  refine ⟨fun payload => ?_, intoPayload_eventType, fun value => fromValue_foreign⟩
  exact fromValue_serialize _ rfl rfl huuid

end

/-- Lower-case hexadecimal in groups of 8, 4, 4, 4 and 12. -/
def hyphenated : UuidText (BitVec 128) where
  format value :=
    let digits := (List.range 32).map fun i => Nat.digitChar (value.toNat / 16 ^ (31 - i) % 16)
    .ofList (digits.take 8 ++ '-' :: (digits.drop 8).take 4 ++ '-' :: (digits.drop 12).take 4 ++
      '-' :: (digits.drop 16).take 4 ++ '-' :: digits.drop 20)
  parse text :=
    let groups := text.toList.splitOn '-'
    if groups.map List.length = [8, 4, 4, 4, 12] then
      (groups.flatten.mapM fun c => "0123456789abcdef".toList.idxOf? c.toLower).map fun digits =>
        BitVec.ofNat 128 (digits.foldl (fun value digit => value * 16 + digit) 0)
    else none

def stoppedPayload : Payload := ⟨.processStopped, ((484 : UInt32), "a.exe", ())⟩

theorem stoppedPayload_comesBack :
    fromValue hyphenated (serialize hyphenated (envelopeRaw 1699999999999 12345 1 4 .processStopped stoppedPayload)) =
      .ok (envelopeRaw 1699999999999 12345 1 4 .processStopped stoppedPayload) :=
  (typed_envelopes hyphenated 1699999999999 1 4 12345 (by decide +kernel)).1 stoppedPayload

end SecOutfall.SourceWire
