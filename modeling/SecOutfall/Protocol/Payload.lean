import SecOutfall.Foundations.Records

/-! The typed payloads of the wire: `events.rs` and `payload.rs` of the protocol crate.

A struct is the list of its fields as `derive` sees them: key, type, and whether the field is left out when
there is no value. All of them refuse unknown keys. -/
namespace SecOutfall.Protocol
open Records
set_option autoImplicit false

/-! ## Event types -/

inductive EventType where
  | processStarted | processStopped | threadStarted | threadStopped | imageLoaded | imageUnloaded
  | registryKeyCreated | registryKeyDeleted | registryKeyOpened | registryKeyClosed | registryKeyQueried
  | registryValueQueried | registryValueSet | fileCreated | fileWritten | fileClosed | fileCleanedUp
  | fileDeleted | fileRenamed | fileFsctl | netTcpConnected | netTcpAccepted | netTcpDisconnected | behaviorCall
  | protectionStripped | sessionStarted | sessionFinalizing | sessionEnded | scopeDied | targetLaunched
  | dropObserved | dropClosed | dropCopied | dropUploaded | screenshotReceived | screenshotUploaded
  | userActorStarted | userActorStopped | clockAdjusted | agentState | studyScore | studyDropsSummary
  | studyRebootRequested | studyShutdownRequested | controlKeepalive | controlReboot | controlShutdown
  deriving DecidableEq, Repr

def EventType.all : List EventType :=
  [.processStarted, .processStopped, .threadStarted, .threadStopped, .imageLoaded, .imageUnloaded,
  .registryKeyCreated, .registryKeyDeleted, .registryKeyOpened, .registryKeyClosed, .registryKeyQueried,
  .registryValueQueried, .registryValueSet, .fileCreated, .fileWritten, .fileClosed, .fileCleanedUp,
  .fileDeleted, .fileRenamed, .fileFsctl, .netTcpConnected, .netTcpAccepted, .netTcpDisconnected, .behaviorCall,
  .protectionStripped, .sessionStarted, .sessionFinalizing, .sessionEnded, .scopeDied, .targetLaunched,
  .dropObserved, .dropClosed, .dropCopied, .dropUploaded, .screenshotReceived, .screenshotUploaded,
  .userActorStarted, .userActorStopped, .clockAdjusted, .agentState, .studyScore, .studyDropsSummary,
  .studyRebootRequested, .studyShutdownRequested, .controlKeepalive, .controlReboot, .controlShutdown]

/-- The name of a member for serde, too. -/
def EventType.asStr : EventType → String
  | .processStarted => "process.started"
  | .processStopped => "process.stopped"
  | .threadStarted => "thread.started"
  | .threadStopped => "thread.stopped"
  | .imageLoaded => "image.loaded"
  | .imageUnloaded => "image.unloaded"
  | .registryKeyCreated => "registry.key_created"
  | .registryKeyDeleted => "registry.key_deleted"
  | .registryKeyOpened => "registry.key_opened"
  | .registryKeyClosed => "registry.key_closed"
  | .registryKeyQueried => "registry.key_queried"
  | .registryValueQueried => "registry.value_queried"
  | .registryValueSet => "registry.value_set"
  | .fileCreated => "file.created"
  | .fileWritten => "file.written"
  | .fileClosed => "file.closed"
  | .fileCleanedUp => "file.cleaned_up"
  | .fileDeleted => "file.deleted"
  | .fileRenamed => "file.renamed"
  | .fileFsctl => "file.fsctl"
  | .netTcpConnected => "net.tcp.connected"
  | .netTcpAccepted => "net.tcp.accepted"
  | .netTcpDisconnected => "net.tcp.disconnected"
  | .behaviorCall => "behavior.call"
  | .protectionStripped => "protection.stripped"
  | .sessionStarted => "session.started"
  | .sessionFinalizing => "session.finalizing"
  | .sessionEnded => "session.ended"
  | .scopeDied => "scope.died"
  | .targetLaunched => "target.launched"
  | .dropObserved => "drop.observed"
  | .dropClosed => "drop.closed"
  | .dropCopied => "drop.copied"
  | .dropUploaded => "drop.uploaded"
  | .screenshotReceived => "screenshot.received"
  | .screenshotUploaded => "screenshot.uploaded"
  | .userActorStarted => "user_actor.started"
  | .userActorStopped => "user_actor.stopped"
  | .clockAdjusted => "clock.adjusted"
  | .agentState => "agent.state"
  | .studyScore => "study.score"
  | .studyDropsSummary => "study.drops_summary"
  | .studyRebootRequested => "study.reboot_requested"
  | .studyShutdownRequested => "study.shutdown_requested"
  | .controlKeepalive => "control.keepalive"
  | .controlReboot => "control.reboot"
  | .controlShutdown => "control.shutdown"

theorem EventType.find_asStr (event : EventType) :
    EventType.all.find? (fun other => other.asStr == event.asStr) = some event := by
  cases event <;> decide +kernel

def eventType : Codec EventType := enumeration EventType.all EventType.asStr EventType.find_asStr

/-! ## Enumerations -/

inductive FinalizeReason where
  | deadline | deadScope | inboundRequest | error
  deriving DecidableEq, Repr

def FinalizeReason.serdeName : FinalizeReason → String
  | .deadline => "deadline"
  | .deadScope => "dead_scope"
  | .inboundRequest => "inbound_request"
  | .error => "error"

def finalizeReason : Codec FinalizeReason :=
  enumeration [.deadline, .deadScope, .inboundRequest, .error] FinalizeReason.serdeName fun reason => by
    cases reason <;> decide +kernel

inductive Launcher where
  | token | schedTask
  deriving DecidableEq, Repr

def Launcher.serdeName : Launcher → String
  | .token => "token"
  | .schedTask => "sched_task"

def launcher : Codec Launcher :=
  enumeration [.token, .schedTask] Launcher.serdeName fun launcher => by
    cases launcher <;> decide +kernel

inductive ClockCause where
  | studyStart | sessionOffset
  deriving DecidableEq, Repr

def ClockCause.serdeName : ClockCause → String
  | .studyStart => "study_start"
  | .sessionOffset => "session_offset"

def clockCause : Codec ClockCause :=
  enumeration [.studyStart, .sessionOffset] ClockCause.serdeName fun cause => by
    cases cause <;> decide +kernel

/-! ## Structs -/

def processStartedData : Schema where
  fields :=
    [required "pid" u32, optional "parent_pid" u32, required "name" text, optional "image_path" text,
     optional "command_line" text, optional "os_session_id" u32]
  nodup := by decide +kernel

def processStoppedData : Schema where
  fields := [required "pid" u32, required "name" text]
  nodup := by decide +kernel

def threadStartedData : Schema where
  fields := [required "pid" u32, required "tid" u32, optional "parent_tid" u32]
  nodup := by decide +kernel

def threadStoppedData : Schema where
  fields := [required "pid" u32, required "tid" u32]
  nodup := by decide +kernel

def imageLoadedData : Schema where
  fields :=
    [required "pid" u32, required "name" text, optional "image_path" text, optional "image_size" u64,
     optional "image_checksum" u32]
  nodup := by decide +kernel

def imageUnloadedData : Schema where
  fields := [required "pid" u32, required "name" text]
  nodup := by decide +kernel

def registryKeyData : Schema where
  fields := [required "pid" u32, required "key_name" text, optional "key_handle" u64]
  nodup := by decide +kernel

def registryValueQueriedData : Schema where
  fields := [required "pid" u32, required "key_name" text, optional "value_name" text, optional "key_handle" u64]
  nodup := by decide +kernel

def registryValueSetData : Schema where
  fields :=
    [required "pid" u32, required "key_name" text, optional "value_name" text, optional "key_handle" u64,
     optional "value_type" text, optional "data_size" u32]
  nodup := by decide +kernel

def fileCreatedData : Schema where
  fields :=
    [required "pid" u32, optional "file_object" u64, optional "file_name" text, optional "create_options" u32,
     optional "create_disposition" u32]
  nodup := by decide +kernel

def fileWrittenData : Schema where
  fields :=
    [required "pid" u32, optional "file_object" u64, optional "file_key" u64, optional "file_name" text,
     optional "io_size" u64, optional "offset" u64]
  nodup := by decide +kernel

def fileReleasedData : Schema where
  fields := [required "pid" u32, optional "file_object" u64, optional "file_key" u64, optional "file_name" text]
  nodup := by decide +kernel

def fileDeletedData : Schema where
  fields := [required "pid" u32, optional "file_object" u64, optional "file_key" u64, optional "file_name" text]
  nodup := by decide +kernel

def fileRenamedData : Schema where
  fields :=
    [required "pid" u32, optional "file_object" u64, optional "file_name" text, optional "new_name" text,
     optional "file_key" u64]
  nodup := by decide +kernel

def fileFsctlData : Schema where
  fields := [required "pid" u32, optional "file_object" u64, optional "file_name" text, optional "file_key" u64]
  nodup := by decide +kernel

def behaviorCallData : Schema where
  fields :=
    [required "pid" u32, required "tid" u32, required "api" u32, required "arg0" u64, required "arg1" u64,
     required "arg2" u64, required "arg3" u64]
  nodup := by decide +kernel

def protectionStrippedData : Schema where
  fields :=
    [required "opener_pid" u32, required "protected_pid" u32, required "target_is_thread" boolean,
     required "original_access" u64, required "stripped_access" u64]
  nodup := by decide +kernel

def tcpConnectionData : Schema where
  fields :=
    [optional "pid" u32, required "source_addr" text, required "source_port" u16, required "dest_addr" text,
     required "dest_port" u16]
  nodup := by decide +kernel

def sessionStartedData : Schema where
  fields := [optional "scheduled_duration_secs" u64]
  nodup := by decide +kernel

def sessionFinalizingData : Schema where
  fields := [required "reason" finalizeReason]
  nodup := by decide +kernel

def sessionEndedData : Schema where
  fields := []
  nodup := by decide +kernel

def scopeDiedData : Schema where
  fields := []
  nodup := by decide +kernel

def targetLaunchedData : Schema where
  fields := [optional "pid" u32, required "path" text, optional "args" text, required "launcher" launcher]
  nodup := by decide +kernel

def agentStateData : Schema where
  fields := [required "agent_version" text]
  nodup := by decide +kernel

def studyScoreData : Schema where
  fields := [required "score" u32, optional "reason" text]
  nodup := by decide +kernel

def studyDropsSummaryData : Schema where
  fields := [required "extensions" (sortedMap u32)]
  nodup := by decide +kernel

def studyRebootRequestedData : Schema where
  fields := [optional "reason" text]
  nodup := by decide +kernel

def studyShutdownRequestedData : Schema where
  fields := [optional "reason" text]
  nodup := by decide +kernel

def dropObservedData : Schema where
  fields := [required "path" text, optional "pid" u32]
  nodup := by decide +kernel

def dropClosedData : Schema where
  fields := [required "path" text]
  nodup := by decide +kernel

def dropCopiedData : Schema where
  fields := [required "source" text, required "copy" text, required "size_bytes" u64]
  nodup := by decide +kernel

def dropUploadedData : Schema where
  fields := [required "copy" text, required "size_bytes" u64]
  nodup := by decide +kernel

def screenshotReceivedData : Schema where
  fields := [required "seq" u32, required "size_bytes" u64]
  nodup := by decide +kernel

def screenshotUploadedData : Schema where
  fields := [required "seq" u32]
  nodup := by decide +kernel

def userActorStartedData : Schema where
  fields := [required "module_version" text, optional "pid" u32]
  nodup := by decide +kernel

def userActorStoppedData : Schema where
  fields := [optional "reason" text]
  nodup := by decide +kernel

def clockAdjustedData : Schema where
  fields := [required "to_ts" i64, required "offset_secs" i64, required "cause" clockCause]
  nodup := by decide +kernel

def controlKeepaliveData : Schema where
  fields := []
  nodup := by decide +kernel

def controlRebootData : Schema where
  fields := [optional "reason" text]
  nodup := by decide +kernel

def controlShutdownData : Schema where
  fields := [optional "reason" text]
  nodup := by decide +kernel

/-! ## Payloads -/

inductive Variant where
  | processStarted | processStopped | threadStarted | threadStopped | imageLoaded | imageUnloaded
  | registryKeyCreated | registryKeyDeleted | registryKeyOpened | registryKeyClosed | registryKeyQueried
  | registryValueQueried | registryValueSet | fileCreated | fileWritten | fileClosed | fileCleanedUp
  | fileDeleted | fileRenamed | fileFsctl | netTcpConnected | netTcpAccepted | netTcpDisconnected | behaviorCall
  | protectionStripped | sessionStarted | sessionFinalizing | sessionEnded | scopeDied | targetLaunched
  | agentState | studyScore | studyDropsSummary | studyRebootRequested | studyShutdownRequested | dropObserved
  | dropClosed | dropCopied | dropUploaded | screenshotReceived | screenshotUploaded | userActorStarted
  | userActorStopped | clockAdjusted | controlKeepalive | controlReboot | controlShutdown
  deriving DecidableEq, Repr

def Variant.all : List Variant :=
  [.processStarted, .processStopped, .threadStarted, .threadStopped, .imageLoaded, .imageUnloaded,
  .registryKeyCreated, .registryKeyDeleted, .registryKeyOpened, .registryKeyClosed, .registryKeyQueried,
  .registryValueQueried, .registryValueSet, .fileCreated, .fileWritten, .fileClosed, .fileCleanedUp,
  .fileDeleted, .fileRenamed, .fileFsctl, .netTcpConnected, .netTcpAccepted, .netTcpDisconnected, .behaviorCall,
  .protectionStripped, .sessionStarted, .sessionFinalizing, .sessionEnded, .scopeDied, .targetLaunched,
  .agentState, .studyScore, .studyDropsSummary, .studyRebootRequested, .studyShutdownRequested, .dropObserved,
  .dropClosed, .dropCopied, .dropUploaded, .screenshotReceived, .screenshotUploaded, .userActorStarted,
  .userActorStopped, .clockAdjusted, .controlKeepalive, .controlReboot, .controlShutdown]

/-- `payload_variants!`. -/
def payloadVariants : Variant → Schema × EventType
  | .processStarted => (processStartedData, .processStarted)
  | .processStopped => (processStoppedData, .processStopped)
  | .threadStarted => (threadStartedData, .threadStarted)
  | .threadStopped => (threadStoppedData, .threadStopped)
  | .imageLoaded => (imageLoadedData, .imageLoaded)
  | .imageUnloaded => (imageUnloadedData, .imageUnloaded)
  | .registryKeyCreated => (registryKeyData, .registryKeyCreated)
  | .registryKeyDeleted => (registryKeyData, .registryKeyDeleted)
  | .registryKeyOpened => (registryKeyData, .registryKeyOpened)
  | .registryKeyClosed => (registryKeyData, .registryKeyClosed)
  | .registryKeyQueried => (registryKeyData, .registryKeyQueried)
  | .registryValueQueried => (registryValueQueriedData, .registryValueQueried)
  | .registryValueSet => (registryValueSetData, .registryValueSet)
  | .fileCreated => (fileCreatedData, .fileCreated)
  | .fileWritten => (fileWrittenData, .fileWritten)
  | .fileClosed => (fileReleasedData, .fileClosed)
  | .fileCleanedUp => (fileReleasedData, .fileCleanedUp)
  | .fileDeleted => (fileDeletedData, .fileDeleted)
  | .fileRenamed => (fileRenamedData, .fileRenamed)
  | .fileFsctl => (fileFsctlData, .fileFsctl)
  | .netTcpConnected => (tcpConnectionData, .netTcpConnected)
  | .netTcpAccepted => (tcpConnectionData, .netTcpAccepted)
  | .netTcpDisconnected => (tcpConnectionData, .netTcpDisconnected)
  | .behaviorCall => (behaviorCallData, .behaviorCall)
  | .protectionStripped => (protectionStrippedData, .protectionStripped)
  | .sessionStarted => (sessionStartedData, .sessionStarted)
  | .sessionFinalizing => (sessionFinalizingData, .sessionFinalizing)
  | .sessionEnded => (sessionEndedData, .sessionEnded)
  | .scopeDied => (scopeDiedData, .scopeDied)
  | .targetLaunched => (targetLaunchedData, .targetLaunched)
  | .agentState => (agentStateData, .agentState)
  | .studyScore => (studyScoreData, .studyScore)
  | .studyDropsSummary => (studyDropsSummaryData, .studyDropsSummary)
  | .studyRebootRequested => (studyRebootRequestedData, .studyRebootRequested)
  | .studyShutdownRequested => (studyShutdownRequestedData, .studyShutdownRequested)
  | .dropObserved => (dropObservedData, .dropObserved)
  | .dropClosed => (dropClosedData, .dropClosed)
  | .dropCopied => (dropCopiedData, .dropCopied)
  | .dropUploaded => (dropUploadedData, .dropUploaded)
  | .screenshotReceived => (screenshotReceivedData, .screenshotReceived)
  | .screenshotUploaded => (screenshotUploadedData, .screenshotUploaded)
  | .userActorStarted => (userActorStartedData, .userActorStarted)
  | .userActorStopped => (userActorStoppedData, .userActorStopped)
  | .clockAdjusted => (clockAdjustedData, .clockAdjusted)
  | .controlKeepalive => (controlKeepaliveData, .controlKeepalive)
  | .controlReboot => (controlRebootData, .controlReboot)
  | .controlShutdown => (controlShutdownData, .controlShutdown)

structure Payload where
  variant : Variant
  data : (payloadVariants variant).1.Value

namespace Payload

def eventType (payload : Payload) : EventType := (payloadVariants payload.variant).2

/-- Untagged. -/
def toValue (payload : Payload) : Json := (payloadVariants payload.variant).1.encode payload.data

/-- The first row of the table with the event type. -/
def fromRaw (event : EventType) (data : Json) : Option Payload :=
  match Variant.all.find? (fun variant => (payloadVariants variant).2 == event) with
  | some variant => ((payloadVariants variant).1.decode data).map fun data => ⟨variant, data⟩
  | none => none

/-- The row of a variant is the only one with its event type. -/
theorem find_variant (variant : Variant) :
    Variant.all.find? (fun other => (payloadVariants other).2 == (payloadVariants variant).2) = some variant := by
  cases variant <;> rfl

theorem fromRaw_toValue (payload : Payload) : fromRaw payload.eventType payload.toValue = some payload := by
  rw [fromRaw, eventType, find_variant, toValue]
  dsimp only
  rw [Schema.decode_encode]
  rfl

end Payload

/-- The keys of the data of an event type. -/
def dataKeys (event : EventType) : List String :=
  ((Variant.all.find? fun variant => (payloadVariants variant).2 == event).map
    fun variant => (payloadVariants variant).1.keys).getD []

theorem Payload.fromRaw_foreign {event : EventType} {entries : List (String × Json)} {key : String}
    (hkey : key ∈ entries.map Prod.fst) (hforeign : key ∉ dataKeys event) : fromRaw event (.object entries) = none := by
  unfold fromRaw
  unfold dataKeys at hforeign
  split
  case h_1 variant hfind =>
    rw [hfind] at hforeign
    rw [Schema.decode_foreign hkey hforeign]
    rfl
  case h_2 => rfl

end SecOutfall.Protocol
