import Mathlib.Data.List.ModifyLast
import SecOutfall.Agent.Pipeline

/-! The session manager: `plugins/session_manager.rs`, and `load_scope_state` of `app/builder.rs`.

`finalize_session` locks the shared state several times and awaits its publishes, the clock, the
kills and the save. `finalizeStep` runs it from one such point to the next with the answer of the
call it awaited; what other tasks do in between is a step of theirs. Milliseconds do not overflow. -/
namespace SecOutfall.Agent
set_option autoImplicit false

/-! ## Envelopes -/

inductive FinalizeReason where
  | deadline | deadScope | inboundRequest | error
  deriving DecidableEq, Repr

/-- `format!("{reason:?}").to_lowercase()`. -/
def FinalizeReason.text : FinalizeReason → String
  | .deadline => "deadline"
  | .deadScope => "deadscope"
  | .inboundRequest => "inboundrequest"
  | .error => "error"

inductive ClockCause where
  | studyStart | sessionOffset
  deriving DecidableEq, Repr

/-- What the session manager publishes. A histogram is the entries of the map in key order. -/
inductive EnvelopePayload where
  | agentState
  | sessionStarted (scheduledDurationSecs : Option UInt64)
  | sessionFinalizing (reason : FinalizeReason)
  | studyScore (score : UInt32) (reason : Option String)
  | studyDropsSummary (extensions : List (String × ℕ))
  | clockAdjusted (toTs offsetSecs : ℤ) (cause : ClockCause)
  | sessionEnded
  | studyShutdownRequested (reason : Option String)
  | studyRebootRequested (reason : Option String)
  deriving DecidableEq, Repr

structure Envelope where
  timestampMs : ℤ
  studyId : BitVec 128
  sessionId : UInt32
  payload : EnvelopePayload
  deriving DecidableEq, Repr

def Envelope.isSessionStarted (envelope : Envelope) : Bool :=
  match envelope.payload with
  | .sessionStarted _ => true
  | _ => false

/-! ## State -/

/-- What the manager reads of the configuration. The shutdown delay only sleeps, and the kills
touch nothing here. -/
structure SessionConfig where
  uptimes : List UInt64
  timestamp : UInt64
  offsetSecs : ℤ
  skipTimeManipulation : Bool
  skipRebootAndShutdown : Bool
  deriving DecidableEq, Repr

/-- The shared state of one boot. `published` and `saves` list what finalize and the boot reports
handed to the broker and to the store, with the answer. -/
structure SessionManager where
  agent : Pipeline
  finalized : Bool
  finalizeDone : Bool
  maxScore : UInt32
  published : List (Envelope × Bool)
  saves : List (ScopeState × Bool)

def SessionManager.publish (manager : SessionManager) (envelope : Envelope) (ok : Bool) :
    SessionManager :=
  { manager with published := manager.published ++ [(envelope, ok)] }

@[simp] theorem SessionManager.publish_agent (manager : SessionManager) (envelope : Envelope)
    (ok : Bool) : (manager.publish envelope ok).agent = manager.agent := rfl

/-! ## Opening -/

/-- A missing file is the default state, without study and sessions. -/
def loadScopeState (store : Option ScopeState) (fresh : BitVec 128) : ScopeState :=
  let state := store.getD ⟨0, []⟩
  if state.studyId = 0 then { state with studyId := fresh } else state

/-- `u32::try_from(len).unwrap_or(u32::MAX)`. -/
def sessionIdOf (count : ℕ) : UInt32 := .ofNat (min count 4294967295)

def openSessionIfNeeded (config : SessionConfig) (nowMs : ℤ) (state : ScopeState) : ScopeState :=
  let state :=
    if state.currentSession.any (·.endedAtMs.isNone) then
      state.updateCurrent fun session => { session with endedAtMs := some nowMs, abandoned := true }
    else state
  let id := sessionIdOf state.sessions.length
  { state with sessions := state.sessions ++ [⟨id, config.uptimes[id.toNat]?, nowMs, none, false, [], []⟩] }

/-- `i64::try_from(timestamp).unwrap_or(0).saturating_mul(1000)`. -/
def studyStartMs (timestamp : UInt64) : ℤ :=
  if timestamp.toNat < 9223372036854775808 then min (timestamp.toNat * 1000) 9223372036854775807 else 0

/-- `apply_study_start_timestamp`: what it publishes once the clock was set. -/
def studyStartReports (config : SessionConfig) (state : ScopeState) (sessionId : UInt32)
    (realNow : ℤ) (shifted : Bool) : List Envelope :=
  if state.sessions.length != 1 || config.skipTimeManipulation || config.timestamp == 0 then []
  else if shifted then
    let target := studyStartMs config.timestamp
    [⟨target, state.studyId, sessionId,
      .clockAdjusted target ((target - realNow).tdiv 1000) .studyStart⟩]
  else []

/-- The publishes of `start`, in their order. -/
def startReports (config : SessionConfig) (state : ScopeState) (realNow now : ℤ) (shifted : Bool) :
    List Envelope :=
  match state.currentSession with
  | none => []
  | some session =>
    studyStartReports config state session.id realNow shifted ++
      [⟨now, state.studyId, session.id, .agentState⟩,
       ⟨now, state.studyId, session.id, .sessionStarted session.scheduledDurationSecs⟩]

/-! ## Finalize -/

def stampEnded (nowMs : ℤ) (session : SessionRecord) : SessionRecord :=
  { session with
    endedAtMs := some nowMs
    scopedProcesses := session.scopedProcesses.map fun process =>
      if process.endedAtMs.isNone then { process with endedAtMs := some nowMs } else process }

/-- `*histogram.entry(extension).or_insert(0) += 1`. -/
def bumpEntry (extension : String) : List (String × ℕ) → List (String × ℕ)
  | [] => [(extension, 1)]
  | (key, count) :: rest =>
    if extension = key then (key, count + 1) :: rest
    else if extension < key then (extension, 1) :: (key, count) :: rest
    else (key, count) :: bumpEntry extension rest

def extensionHistogram (lower : String → String) (drops : List String) : List (String × ℕ) :=
  drops.foldl (fun histogram path => bumpEntry (((extensionOf path).map lower).getD "") histogram) []

def dropsHistogram (lower : String → String) (state : ScopeState) : List (String × ℕ) :=
  match state.currentSession with
  | none => []
  | some session => extensionHistogram lower session.observedDrops

inductive FinalizePoint where
  | stamp | identify | finalizing | histogram | score | dropsSummary | clockShift | clockAdjusted
  | kill | snapshot | save | ended | request | complete | returned
  deriving DecidableEq, Repr

/-- One call of `finalize_session` behind its swap: where it stands, and its locals. -/
structure Finalize where
  point : FinalizePoint
  reason : FinalizeReason
  nowMs : ℤ
  studyId : BitVec 128
  sessionId : UInt32
  sessionCount : ℕ
  histogram : List (String × ℕ)
  scoreSent : UInt32
  snapshot : ScopeState
  deriving DecidableEq, Repr

def Finalize.begin (reason : FinalizeReason) (nowMs : ℤ) : Finalize :=
  ⟨.stamp, reason, nowMs, 0, 0, 0, [], 0, ⟨0, []⟩⟩

def Finalize.goto (finalize : Finalize) (point : FinalizePoint) : Finalize :=
  { finalize with point }

def Finalize.emit (finalize : Finalize) (payload : EnvelopePayload) : Envelope :=
  ⟨finalize.nowMs, finalize.studyId, finalize.sessionId, payload⟩

/-- `finalized.swap(true)`: only the first caller goes on. -/
def finalizeSwap (manager : SessionManager) (reason : FinalizeReason) (nowMs : ℤ) :
    SessionManager × Option Finalize :=
  if manager.finalized then (manager, none)
  else ({ manager with finalized := true }, some (.begin reason nowMs))

/-- `request_reboot_or_shutdown` behind the delay. -/
def rebootRequest (config : SessionConfig) (finalize : Finalize) : Envelope :=
  let reason := some finalize.reason.text
  finalize.emit
    (if config.uptimes.isEmpty || decide (config.uptimes.length ≤ finalize.sessionCount) then
      .studyShutdownRequested reason
    else .studyRebootRequested reason)

/-- `finalize_session` from one point to the next; `ok` is the answer of the awaited call. -/
def finalizeStep (lower : String → String) (config : SessionConfig) (manager : SessionManager)
    (finalize : Finalize) (ok : Bool) : SessionManager × Finalize :=
  match finalize.point with
  | .stamp =>
    match manager.agent.state.currentSession with
    | none => ({ manager with finalizeDone := true }, finalize.goto .returned)
    | some _ =>
      let state := manager.agent.state.updateCurrent (stampEnded finalize.nowMs)
      ({ manager with agent := { manager.agent with state } }, finalize.goto .identify)
  | .identify =>
    match manager.agent.state.currentSession with
    | none => ({ manager with finalizeDone := true }, finalize.goto .returned)
    | some session =>
      (manager, { finalize with
        point := .finalizing
        studyId := manager.agent.state.studyId
        sessionId := session.id
        sessionCount := manager.agent.state.sessions.length })
  | .finalizing =>
    (manager.publish (finalize.emit (.sessionFinalizing finalize.reason)) ok,
      finalize.goto .histogram)
  | .histogram =>
    (manager, { finalize with
      point := .score
      histogram := dropsHistogram lower manager.agent.state
      scoreSent := manager.maxScore })
  | .score =>
    (manager.publish (finalize.emit (.studyScore finalize.scoreSent (some "Total"))) ok,
      finalize.goto .dropsSummary)
  | .dropsSummary =>
    (manager.publish (finalize.emit (.studyDropsSummary finalize.histogram)) ok,
      finalize.goto .clockShift)
  | .clockShift =>
    if config.skipTimeManipulation || config.offsetSecs == 0 then (manager, finalize.goto .kill)
    else (manager, finalize.goto (if ok then .clockAdjusted else .kill))
  | .clockAdjusted =>
    (manager.publish
      (finalize.emit
        (.clockAdjusted (finalize.nowMs + config.offsetSecs * 1000) config.offsetSecs .sessionOffset))
      ok, finalize.goto .kill)
  | .kill => (manager, finalize.goto .snapshot)
  | .snapshot => (manager, { finalize with point := .save, snapshot := manager.agent.state })
  | .save =>
    ({ manager with saves := manager.saves ++ [(finalize.snapshot, ok)] }, finalize.goto .ended)
  | .ended => (manager.publish (finalize.emit .sessionEnded) ok, finalize.goto .request)
  | .request =>
    if config.skipRebootAndShutdown then (manager, finalize.goto .complete)
    else (manager.publish (rebootRequest config finalize) ok, finalize.goto .complete)
  | .complete => ({ manager with finalizeDone := true }, finalize.goto .returned)
  | .returned => (manager, finalize)

/-! ## The current session -/

@[simp] theorem updateCurrent_studyId (state : ScopeState) (f : SessionRecord → SessionRecord) :
    (state.updateCurrent f).studyId = state.studyId := rfl

@[simp] theorem updateCurrent_currentSession (state : ScopeState) (f : SessionRecord → SessionRecord) :
    (state.updateCurrent f).currentSession = state.currentSession.map f := by
  obtain ⟨studyId, sessions⟩ := state
  rcases sessions.eq_nil_or_concat with rfl | ⟨front, last, rfl⟩
  · rfl
  · simp [ScopeState.updateCurrent, ScopeState.currentSession, List.modifyLast_concat]

@[simp] theorem updateCurrent_length (state : ScopeState) (f : SessionRecord → SessionRecord) :
    (state.updateCurrent f).sessions.length = state.sessions.length := by
  obtain ⟨studyId, sessions⟩ := state
  rcases sessions.eq_nil_or_concat with rfl | ⟨front, last, rfl⟩
  · rfl
  · simp [ScopeState.updateCurrent, List.modifyLast_concat]

theorem updateCurrent_getElem? (state : ScopeState) (f : SessionRecord → SessionRecord) (i : ℕ) :
    (state.updateCurrent f).sessions[i]? =
      if i + 1 = state.sessions.length then state.sessions[i]?.map f else state.sessions[i]? := by
  obtain ⟨studyId, sessions⟩ := state
  rcases sessions.eq_nil_or_concat with rfl | ⟨front, last, rfl⟩
  · show ([] : List SessionRecord)[i]? = _
    simp
  · simp only [ScopeState.updateCurrent, List.concat_eq_append, List.modifyLast_concat, List.getElem?_append,
      List.length_append, List.length_singleton, Nat.add_right_cancel_iff]
    by_cases hi : i = front.length
    · simp [hi]
    · rw [if_neg hi]
      by_cases hlt : i < front.length
      · rw [if_pos hlt, if_pos hlt]
      · rw [if_neg hlt, if_neg hlt, List.getElem?_eq_none (by simp; omega), List.getElem?_eq_none (by simp; omega)]

theorem updateCurrent_id (state : ScopeState) : state.updateCurrent id = state := by
  obtain ⟨studyId, sessions⟩ := state
  rcases sessions.eq_nil_or_concat with rfl | ⟨front, last, rfl⟩
  · rfl
  · simp [ScopeState.updateCurrent, List.modifyLast_concat]

theorem updateCurrent_of_none {state : ScopeState} (f : SessionRecord → SessionRecord)
    (h : state.currentSession = none) : state.updateCurrent f = state := by
  obtain ⟨studyId, sessions⟩ := state
  cases List.getLast?_eq_none_iff.mp h
  rfl

/-- Only the stamp changes the scope state. -/
theorem finalizeStep_state (lower : String → String) (config : SessionConfig)
    (manager : SessionManager) (finalize : Finalize) (ok : Bool) :
    (finalizeStep lower config manager finalize ok).1.agent.state =
      if finalize.point = .stamp then manager.agent.state.updateCurrent (stampEnded finalize.nowMs)
      else manager.agent.state := by
  unfold finalizeStep
  cases finalize.point with
  | stamp =>
    cases hc : manager.agent.state.currentSession with
    | none => exact (updateCurrent_of_none _ hc).symm
    | some session => rfl
  | identify => cases manager.agent.state.currentSession <;> rfl
  | clockShift => cases config.skipTimeManipulation || config.offsetSecs == 0 <;> rfl
  | request => cases config.skipRebootAndShutdown <;> rfl
  | _ => rfl

theorem finalizeStep_length (lower : String → String) (config : SessionConfig) (manager : SessionManager)
    (finalize : Finalize) (ok : Bool) :
    (finalizeStep lower config manager finalize ok).1.agent.state.sessions.length =
      manager.agent.state.sessions.length := by
  rw [finalizeStep_state]
  split
  · exact updateCurrent_length _ _
  · rfl

/-- The save is reached by taking the snapshot. -/
theorem finalizeStep_save {lower : String → String} {config : SessionConfig}
    {manager : SessionManager} {finalize : Finalize} {ok : Bool}
    (hsave : (finalizeStep lower config manager finalize ok).2.point = .save) :
    finalize.point = .snapshot ∧
      (finalizeStep lower config manager finalize ok).2.snapshot = manager.agent.state := by
  revert hsave
  unfold finalizeStep
  cases hp : finalize.point with
  | snapshot => exact fun _ => ⟨rfl, rfl⟩
  | stamp => cases manager.agent.state.currentSession <;> simp [Finalize.goto]
  | identify => cases manager.agent.state.currentSession <;> simp [Finalize.goto]
  | clockShift =>
    cases config.skipTimeManipulation || config.offsetSecs == 0 <;> cases ok <;> simp [Finalize.goto]
  | request => cases config.skipRebootAndShutdown <;> simp [Finalize.goto]
  | returned => simp [hp]
  | _ => simp [Finalize.goto]

/-- What this point publishes. -/
def Finalize.report (config : SessionConfig) (finalize : Finalize) : Option Envelope :=
  match finalize.point with
  | .finalizing => some (finalize.emit (.sessionFinalizing finalize.reason))
  | .score => some (finalize.emit (.studyScore finalize.scoreSent (some "Total")))
  | .dropsSummary => some (finalize.emit (.studyDropsSummary finalize.histogram))
  | .clockAdjusted =>
    some (finalize.emit
      (.clockAdjusted (finalize.nowMs + config.offsetSecs * 1000) config.offsetSecs .sessionOffset))
  | .ended => some (finalize.emit .sessionEnded)
  | .request => if config.skipRebootAndShutdown then none else some (rebootRequest config finalize)
  | _ => none

theorem finalizeStep_published (lower : String → String) (config : SessionConfig)
    (manager : SessionManager) (finalize : Finalize) (ok : Bool) :
    (finalizeStep lower config manager finalize ok).1.published =
      manager.published ++ (finalize.report config).toList.map (·, ok) := by
  have hnothing : manager.published = manager.published ++ [] := (List.append_nil _).symm
  unfold finalizeStep Finalize.report
  cases finalize.point with
  | stamp => cases manager.agent.state.currentSession <;> exact hnothing
  | identify => cases manager.agent.state.currentSession <;> exact hnothing
  | clockShift => cases config.skipTimeManipulation || config.offsetSecs == 0 <;> exact hnothing
  | request => cases config.skipRebootAndShutdown <;> first | rfl | exact hnothing
  | finalizing | score | dropsSummary | clockAdjusted | ended => rfl
  | _ => exact hnothing

/-- What one accepted event makes of the scope state: what a tracking function makes of it, or
nothing. -/
inductive Tracked (lower : String → String) (filter : DropFilter) (now : ℤ) (state : ScopeState) :
    ScopeState → Prop where
  | unchanged : Tracked lower filter now state state
  | entered (tracker : ScopeTracker) (data : ProcessStartedData) :
    Tracked lower filter now state (tracker.processEntered lower state data now).2
  | exited (data : ProcessStoppedData) :
    Tracked lower filter now state (ScopeTracker.processExited state data now).2
  | dropObserved (data : FileData) :
    Tracked lower filter now state (ScopeTracker.dropObserved lower state data filter).2

section
variable {lower : String → String} {config : Config}

theorem handleSource_state (agent : Pipeline) (now : ℤ) (event : SourceEvent) :
    (handleSource lower config agent now event).state =
      match event with
      | .processStarted data => (agent.tracker.processEntered lower agent.state data now).2
      | .processStopped data => (ScopeTracker.processExited agent.state data now).2
      | .fileWritten data => (ScopeTracker.dropObserved lower agent.state data config.filter).2
      | _ => agent.state := by
  cases event with
  | other => rfl
  | _ =>
    simp only [handleSource]
    split <;> rfl

theorem handleSource_tracker (agent : Pipeline) (now : ℤ) (event : SourceEvent) :
    (handleSource lower config agent now event).tracker =
      match event with
      | .fileClosed data | .fileCleanedUp data => (agent.tracker.dropClosed agent.state data).2
      | _ => agent.tracker := by
  cases event with
  | other => rfl
  | _ =>
    simp only [handleSource]
    split <;> rfl

theorem handleSource_tracked (agent : Pipeline) (now : ℤ) (event : SourceEvent) :
    Tracked lower config.filter now agent.state (handleSource lower config agent now event).state := by
  rw [handleSource_state]
  cases event with
  | processStarted data => exact .entered _ _
  | processStopped data => exact .exited _
  | fileWritten data => exact .dropObserved _
  | _ => exact .unchanged

/-- The middleware behind the tracker touches only its own. -/
theorem launchers_frame (agent : Pipeline) (event : SandboxEvent) :
    ∃ targetLauncher supervisor statistics,
      statisticsPre (supervisorPre config (targetLauncherPre config agent event) event) event =
        { agent with targetLauncher, supervisor, statistics } := by
  have htarget : ∃ targetLauncher, targetLauncherPre config agent event = { agent with targetLauncher } := by
    unfold targetLauncherPre
    split
    · split <;> exact ⟨_, rfl⟩
    · exact ⟨_, rfl⟩
  have hsupervisor (agent : Pipeline) : ∃ supervisor, supervisorPre config agent event = { agent with supervisor } := by
    unfold supervisorPre
    split
    · split <;> exact ⟨_, rfl⟩
    · exact ⟨_, rfl⟩
  obtain ⟨targetLauncher, htarget⟩ := htarget
  obtain ⟨supervisor, hsupervisor⟩ := hsupervisor { agent with targetLauncher }
  rw [htarget, hsupervisor]
  exact ⟨_, _, _, rfl⟩

/-- Any event is drained for and source telemetry handled; the rest of the middleware touches only its own. -/
theorem accept_eq (agent : Pipeline) (now : ℤ) (event : SandboxEvent) :
    ∃ targetLauncher supervisor statistics,
      accept lower config agent now event =
        { event.sourceEvent.elim (drainExpectations lower agent)
            (handleSource lower config (drainExpectations lower agent) now) with
          targetLauncher, supervisor, statistics } := by
  obtain ⟨targetLauncher, supervisor, statistics, hframe⟩ :=
    @launchers_frame config (scopeTrackerPre lower config agent now event) event
  refine ⟨targetLauncher, supervisor, statistics, ?_⟩
  rw [accept, hframe]
  dsimp only [scopeTrackerPre]
  cases event.sourceEvent <;> rfl

theorem stamped_sourceEvent (event : SourceEvent) (eventTs : Option ℤ) :
    (stamped event eventTs).sourceEvent = some event := by cases eventTs <;> rfl

theorem accept_tracked (agent : Pipeline) (now : ℤ) (event : SandboxEvent) :
    Tracked lower config.filter now agent.state (accept lower config agent now event).state := by
  obtain ⟨_, _, _, haccept⟩ := @accept_eq lower config agent now event
  rw [haccept]
  cases event.sourceEvent with
  | none => exact .unchanged
  | some source => exact handleSource_tracked (drainExpectations lower agent) now source

theorem processEntered_cases (tracker : ScopeTracker) (state : ScopeState) (data : ProcessStartedData)
    (now : ℤ) :
    tracker.processEntered lower state data now = (false, state) ∨
      ∃ current process, state.currentSession = some current ∧
        process.pid = data.pid ∧ process.endedAtMs = none ∧
        tracker.processEntered lower state data now =
          (true, state.updateCurrent fun session =>
            { session with scopedProcesses :=
              (session.scopedProcesses.filter fun process => process.pid != data.pid) ++ [process] }) := by
  unfold ScopeTracker.processEntered
  dsimp only
  split
  · exact .inl rfl
  · cases hcurrent : state.currentSession with
    | none => exact .inl rfl
    | some current => exact .inr ⟨current, _, rfl, rfl, rfl, rfl⟩

theorem processExited_cases (state : ScopeState) (data : ProcessStoppedData) (now : ℤ) :
    ScopeTracker.processExited state data now = (false, state) ∨
      ∃ current, state.currentSession = some current ∧
        ScopeTracker.processExited state data now =
          (true, state.updateCurrent fun session =>
            { session with scopedProcesses :=
              ScopeTracker.stampExit data.pid now session.scopedProcesses }) := by
  unfold ScopeTracker.processExited
  split
  · rename_i hscoped
    cases hcurrent : state.currentSession with
    | none => simp [ScopeTracker.isScoped, hcurrent] at hscoped
    | some current => exact .inr ⟨current, rfl, rfl⟩
  · exact .inl rfl

theorem dropObserved_cases (state : ScopeState) (data : FileData) (filter : DropFilter) :
    ScopeTracker.dropObserved lower state data filter = (none, state) ∨
      ∃ current path, state.currentSession = some current ∧
        ScopeTracker.dropObserved lower state data filter =
          (some path, state.updateCurrent fun session =>
            { session with observedDrops := session.observedDrops ++ [path] }) := by
  unfold ScopeTracker.dropObserved
  split
  · exact .inl rfl
  · rename_i hscoped
    cases hcurrent : state.currentSession with
    | none => simp [ScopeTracker.isScoped, hcurrent] at hscoped
    | some current =>
      split
      · exact .inl rfl
      · split
        · exact .inl rfl
        · split
          · exact .inl rfl
          · exact .inr ⟨current, _, rfl, rfl⟩

/-- Tracking changes at most the current session, and there its processes and its drops. -/
theorem Tracked.updates {filter : DropFilter} {now : ℤ} {state state' : ScopeState}
    (h : Tracked lower filter now state state') :
    ∃ f : SessionRecord → SessionRecord, state' = state.updateCurrent f ∧ ∀ session, f session =
      { session with
        scopedProcesses := (f session).scopedProcesses
        observedDrops := (f session).observedDrops } := by
  cases h with
  | unchanged => exact ⟨id, (updateCurrent_id state).symm, fun _ => rfl⟩
  | entered tracker data =>
    obtain h | ⟨_, _, _, _, _, h⟩ := @processEntered_cases lower tracker state data now
    · exact ⟨id, by rw [h, updateCurrent_id], fun _ => rfl⟩
    · rw [h]
      exact ⟨_, rfl, fun _ => rfl⟩
  | exited data =>
    obtain h | ⟨_, _, h⟩ := processExited_cases state data now
    · exact ⟨id, by rw [h, updateCurrent_id], fun _ => rfl⟩
    · rw [h]
      exact ⟨_, rfl, fun _ => rfl⟩
  | dropObserved data =>
    obtain h | ⟨_, _, _, h⟩ := @dropObserved_cases lower state data filter
    · exact ⟨id, by rw [h, updateCurrent_id], fun _ => rfl⟩
    · rw [h]
      exact ⟨_, rfl, fun _ => rfl⟩

theorem step_tracked (agent : Pipeline) (op : Op) :
    ∃ now, Tracked lower config.filter now agent.state (step lower config agent op).state := by
  cases op with
  | source event eventTs now => exact ⟨now, accept_tracked agent now (stamped event eventTs)⟩
  | launchJob path =>
    refine ⟨0, ?_⟩
    simp only [step, launchFlow]
    split <;> exact .unchanged
  | userActorJob => exact ⟨0, .unchanged⟩
  | statisticsRecv =>
    refine ⟨0, ?_⟩
    simp only [step, statisticsRecv]
    split <;> exact .unchanged
  | scoreRaised score => exact ⟨0, .unchanged⟩

end

/-! ## What lasts -/

/-- Nothing a finalize did is undone. -/
structure SessionManager.Grows (manager manager' : SessionManager) : Prop where
  taken : manager'.finalized = manager.finalized
  done : manager.finalizeDone = true → manager'.finalizeDone = true
  saved : manager.saves ≠ [] → manager'.saves ≠ []
  published : ∀ report ∈ manager.published, report ∈ manager'.published
  session : manager.agent.state.currentSession.isSome → manager'.agent.state.currentSession.isSome

theorem SessionManager.Grows.refl (manager : SessionManager) : manager.Grows manager :=
  ⟨rfl, id, id, fun _ => id, id⟩

theorem SessionManager.Grows.publish (manager : SessionManager) (envelope : Envelope) (ok : Bool) :
    manager.Grows (manager.publish envelope ok) :=
  ⟨rfl, id, id, fun _ => List.mem_append_left _, id⟩

section
variable {lower : String → String} {config : Config} {session : SessionConfig}

theorem finalizeStep_grows (manager : SessionManager) (finalize : Finalize) (ok : Bool) :
    manager.Grows (finalizeStep lower session manager finalize ok).1 := by
  unfold finalizeStep
  cases finalize.point with
  | stamp =>
    cases hcurrent : manager.agent.state.currentSession with
    | none => exact ⟨rfl, fun _ => rfl, id, fun _ => id, id⟩
    | some current =>
      refine ⟨rfl, id, id, fun _ => id, fun _ => ?_⟩
      simp [hcurrent]
  | identify =>
    cases manager.agent.state.currentSession with
    | none => exact ⟨rfl, fun _ => rfl, id, fun _ => id, id⟩
    | some current => exact .refl manager
  | clockShift => cases session.skipTimeManipulation || session.offsetSecs == 0 <;> exact .refl manager
  | request =>
    cases session.skipRebootAndShutdown
    · exact .publish manager _ ok
    · exact .refl manager
  | save => exact ⟨rfl, id, fun _ => by simp, fun _ => id, id⟩
  | complete => exact ⟨rfl, fun _ => rfl, id, fun _ => id, id⟩
  | finalizing | score | dropsSummary | clockAdjusted | ended => exact .publish manager _ ok
  | histogram | kill | snapshot | returned => exact .refl manager

theorem pipeline_grows (manager : SessionManager) (op : Op) :
    manager.Grows { manager with agent := step lower config manager.agent op } := by
  refine ⟨rfl, id, id, fun _ => id, fun hsession => ?_⟩
  obtain ⟨now, htracked⟩ := @step_tracked lower config manager.agent op
  obtain ⟨f, hstate, _⟩ := htracked.updates
  rw [hstate, updateCurrent_currentSession, Option.isSome_map]
  exact hsession

end

end SecOutfall.Agent
