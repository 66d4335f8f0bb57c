import SecOutfall.Agent.SessionManager

/-! Runs of the scope tracker: what it publishes for one event, and that this accounts for what it does to
the session. -/
namespace SecOutfall.Agent
set_option autoImplicit false

/-! ## Runs of the tracker -/

/-- A source event at the clock's `now`, or an expectation the tracker drains. -/
inductive TrackerOp where
  | source (event : SourceEvent) (now : ℤ)
  | expect (image : String)
  deriving DecidableEq, Repr

section
variable (lower : String → String) (config : Config)

def trackerStep (agent : Pipeline) : TrackerOp → Pipeline
  | .source event now => handleSource lower config agent now event
  | .expect image => { agent with tracker := agent.tracker.expect lower image }

end

def processesOf (state : ScopeState) : List ScopedProcessRecord :=
  state.currentSession.elim [] (·.scopedProcesses)

/-- What the tracker published between two states of a run. -/
def emitted (agent agent' : Pipeline) : List AgentBusEvent :=
  agent'.published.drop agent.published.length

/-! ## What an event does -/

theorem Bus.publish_nil (bus : Bus) : bus.publish [] = bus := by rw [Bus.publish, List.append_nil]

theorem isScoped_iff (state : ScopeState) (pid : UInt32) :
    ScopeTracker.isScoped state pid = true ↔
      ∃ process ∈ processesOf state, process.pid = pid ∧ process.endedAtMs = none := by
  unfold ScopeTracker.isScoped processesOf
  cases state.currentSession <;> simp

theorem scopeDead_iff (state : ScopeState) :
    ScopeTracker.scopeDead state = true ↔
      processesOf state ≠ [] ∧ ∀ process ∈ processesOf state, process.endedAtMs ≠ none := by
  unfold ScopeTracker.scopeDead processesOf
  cases state.currentSession <;> simp [Option.isSome_iff_ne_none]

theorem processesOf_updateCurrent {state : ScopeState} (f : SessionRecord → SessionRecord)
    {current : SessionRecord} (hcurrent : state.currentSession = some current) :
    processesOf (state.updateCurrent f) = (f current).scopedProcesses := by
  simp [processesOf, hcurrent]

section
variable {lower : String → String} {config : Config}

theorem emitted_publish (agent : Pipeline) (state : ScopeState) (events : List AgentBusEvent) :
    emitted agent (Pipeline.publish { agent with state } events) = events := by
  simp [emitted, Pipeline.publish]

theorem emitted_nothing {agent agent' : Pipeline} (h : agent'.published = agent.published) :
    emitted agent agent' = [] := by
  simp [emitted, h]

theorem emitted_started (agent : Pipeline) (now : ℤ) (data : ProcessStartedData) :
    emitted agent (handleSource lower config agent now (.processStarted data)) =
      if (agent.tracker.processEntered lower agent.state data now).1 then
        (if lower data.name == lower config.targetName then [.targetLaunched data.name] else []) ++
          [.processEnteredScope data.pid data.name]
      else [] := by
  simp only [handleSource]
  split
  · exact emitted_publish agent _ _
  · exact emitted_nothing rfl

theorem emitted_stopped (agent : Pipeline) (now : ℤ) (data : ProcessStoppedData) :
    emitted agent (handleSource lower config agent now (.processStopped data)) =
      if (ScopeTracker.processExited agent.state data now).1 then
        .processExitedScope data.pid data.name ::
          if ScopeTracker.scopeDead (ScopeTracker.processExited agent.state data now).2 then [.scopeDied]
          else []
      else [] := by
  simp only [handleSource]
  split
  · exact emitted_publish agent _ _
  · exact emitted_nothing rfl

theorem emitted_written (agent : Pipeline) (now : ℤ) (data : FileData) :
    emitted agent (handleSource lower config agent now (.fileWritten data)) =
      (ScopeTracker.dropObserved lower agent.state data config.filter).1.toList.map
        (.dropObserved · (some data.pid)) := by
  simp only [handleSource]
  cases (ScopeTracker.dropObserved lower agent.state data config.filter).1 with
  | none => exact emitted_nothing rfl
  | some path => exact emitted_publish agent _ _

theorem emitted_called (agent : Pipeline) (now : ℤ) (data : BehaviorCallData) :
    emitted agent (handleSource lower config agent now (.behaviorCall data)) =
      if isScoringRelevant data.api && ScopeTracker.isScoped agent.state data.pid then
        [.behaviorObserved data.pid data.api]
      else [] := by
  simp only [handleSource]
  split
  · exact emitted_publish agent agent.state _
  · exact emitted_nothing rfl

/-- A close and a cleanup are one to the tracker. -/
theorem emitted_released (agent : Pipeline) (now : ℤ) (data : FileData) {event : SourceEvent}
    (hevent : event = .fileClosed data ∨ event = .fileCleanedUp data) :
    emitted agent (handleSource lower config agent now event) =
      (agent.tracker.dropClosed agent.state data).1.toList.map .dropClosed := by
  obtain rfl | rfl := hevent <;>
  · simp only [handleSource]
    cases (agent.tracker.dropClosed agent.state data).1 with
    | none => exact emitted_nothing rfl
    | some path => simp [emitted, Pipeline.publish]

/-- All the tracker publishes goes on the bus. -/
theorem handleSource_bus (agent : Pipeline) (now : ℤ) (event : SourceEvent) :
    (handleSource lower config agent now event).bus =
      agent.bus.publish (emitted agent (handleSource lower config agent now event)) := by
  have hnothing (agent' : Pipeline) (hbus : agent'.bus = agent.bus) (hpublished : agent'.published = agent.published) :
      agent'.bus = agent.bus.publish (emitted agent agent') := by
    rw [emitted_nothing hpublished, Bus.publish_nil, hbus]
  cases event with
  | other => exact hnothing _ rfl rfl
  | _ =>
    simp only [handleSource]
    split
    · simp [emitted, Pipeline.publish]
    · exact hnothing _ rfl rfl

end

/-! ## The session's share -/

/-- The scoped processes alive after the events, of those that entered with them. -/
def trackLive (live : List UInt32) : AgentBusEvent → List UInt32
  | .processEnteredScope pid _ => live.filter (· != pid) ++ [pid]
  | .processExitedScope pid _ => live.erase pid
  | _ => live

def dropsIn (events : List AgentBusEvent) : List String :=
  events.filterMap fun
    | .dropObserved path _ => some path
    | _ => none

def livePids (state : ScopeState) : List UInt32 :=
  state.currentSession.elim [] fun current =>
    (current.scopedProcesses.filter (·.endedAtMs.isNone)).map (·.pid)

def observedDrops (state : ScopeState) : List String :=
  state.currentSession.elim [] (·.observedDrops)

def endOf (state : ScopeState) : Option (Option ℤ) := state.currentSession.map (·.endedAtMs)

/-- The tracker's new events account for the change of the current session. -/
structure Accounts (agent agent' : Pipeline) (events : List AgentBusEvent) : Prop where
  published : agent'.published = agent.published ++ events
  live : livePids agent'.state = events.foldl trackLive (livePids agent.state)
  drops : observedDrops agent'.state = observedDrops agent.state ++ dropsIn events
  ended : endOf agent'.state = endOf agent.state

theorem Accounts.nothing {agent agent' : Pipeline} (hstate : agent'.state = agent.state)
    (hpublished : agent'.published = agent.published) : Accounts agent agent' [] := by
  constructor <;> simp [hstate, hpublished, dropsIn]

theorem livePids_stampExit (pid : UInt32) (nowMs : ℤ) (processes : List ScopedProcessRecord) :
    ((ScopeTracker.stampExit pid nowMs processes).filter (·.endedAtMs.isNone)).map (·.pid) =
      ((processes.filter (·.endedAtMs.isNone)).map (·.pid)).erase pid := by
  induction processes with
  | nil => rfl
  | cons process rest ih =>
    rw [ScopeTracker.stampExit]
    cases hlive : process.endedAtMs.isNone with
    | false => simp [hlive, ih]
    | true =>
      by_cases hpid : process.pid = pid
      · simp [hlive, hpid]
      · simp [hlive, hpid, ih]

section
variable {lower : String → String} {config : Config}

theorem processStarted_accounts (agent : Pipeline) (now : ℤ) (data : ProcessStartedData) :
    ∃ events, Accounts agent (handleSource lower config agent now (.processStarted data)) events := by
  have htarget (live : List UInt32) :
      (if lower data.name == lower config.targetName then [AgentBusEvent.targetLaunched data.name]
        else []).foldl trackLive live = live := by
    split <;> rfl
  obtain h | ⟨current, process, hcurrent, hpid, hended, h⟩ :=
    @processEntered_cases lower agent.tracker agent.state data now
  · simp only [handleSource, h]
    exact ⟨[], .nothing rfl rfl⟩
  · simp only [handleSource, h, if_true]
    refine ⟨_, rfl, ?_, ?_, ?_⟩
    · simp only [livePids, Pipeline.publish, updateCurrent_currentSession, hcurrent, Option.map_some,
        Option.elim_some, List.foldl_append, htarget]
      simp [trackLive, hpid, hended, List.filter_filter, List.filter_map, Function.comp_def, Bool.and_comm]
    · simp only [observedDrops, Pipeline.publish, updateCurrent_currentSession, hcurrent, Option.map_some,
        Option.elim_some]
      split <;> simp [dropsIn]
    · simp [endOf, Pipeline.publish, hcurrent]

theorem processStopped_accounts (agent : Pipeline) (now : ℤ) (data : ProcessStoppedData) :
    ∃ events, Accounts agent (handleSource lower config agent now (.processStopped data)) events := by
  have hdied (live : List UInt32) (dead : Bool) :
      (if dead then [AgentBusEvent.scopeDied] else []).foldl trackLive live = live := by
    cases dead <;> rfl
  obtain h | ⟨current, hcurrent, h⟩ := processExited_cases agent.state data now
  · simp only [handleSource, h]
    exact ⟨[], .nothing rfl rfl⟩
  · simp only [handleSource, h, if_true]
    refine ⟨_, rfl, ?_, ?_, ?_⟩
    · simp only [livePids, Pipeline.publish, updateCurrent_currentSession, hcurrent, Option.map_some,
        Option.elim_some, List.foldl_cons, hdied]
      exact livePids_stampExit data.pid now current.scopedProcesses
    · simp only [observedDrops, Pipeline.publish, updateCurrent_currentSession, hcurrent, Option.map_some,
        Option.elim_some]
      split <;> simp [dropsIn]
    · simp [endOf, Pipeline.publish, hcurrent]

theorem fileWritten_accounts (agent : Pipeline) (now : ℤ) (data : FileData) :
    ∃ events, Accounts agent (handleSource lower config agent now (.fileWritten data)) events := by
  obtain h | ⟨current, path, hcurrent, h⟩ :=
    @dropObserved_cases lower agent.state data config.filter
  · simp only [handleSource, h]
    exact ⟨[], .nothing rfl rfl⟩
  · simp only [handleSource, h]
    refine ⟨_, rfl, ?_, ?_, ?_⟩
    · simp [livePids, Pipeline.publish, hcurrent, trackLive]
    · simp [observedDrops, Pipeline.publish, hcurrent, dropsIn]
    · simp [endOf, Pipeline.publish, hcurrent]

/-- What the tracker publishes accounts for what it does to the session. -/
theorem handleSource_accounts (agent : Pipeline) (now : ℤ) (event : SourceEvent) :
    ∃ events, Accounts agent (handleSource lower config agent now event) events := by
  cases event with
  | processStarted data => exact processStarted_accounts agent now data
  | processStopped data => exact processStopped_accounts agent now data
  | fileWritten data => exact fileWritten_accounts agent now data
  | behaviorCall data =>
    simp only [handleSource]
    split
    · exact ⟨_, rfl, rfl, (List.append_nil _).symm, rfl⟩
    · exact ⟨[], .nothing rfl rfl⟩
  | fileClosed data =>
    simp only [handleSource]
    split
    · exact ⟨_, rfl, rfl, (List.append_nil _).symm, rfl⟩
    · exact ⟨[], .nothing rfl rfl⟩
  | fileCleanedUp data =>
    simp only [handleSource]
    split
    · exact ⟨_, rfl, rfl, (List.append_nil _).symm, rfl⟩
    · exact ⟨[], .nothing rfl rfl⟩
  | other => exact ⟨[], .nothing rfl rfl⟩

theorem step_accounts (agent : Pipeline) (op : Op) :
    ∃ events, Accounts agent (step lower config agent op) events := by
  cases op with
  | source event eventTs now =>
    obtain ⟨events, h⟩ :=
      @handleSource_accounts lower config (drainExpectations lower agent) now event
    obtain ⟨_, _, _, haccept⟩ := @accept_eq lower config agent now (stamped event eventTs)
    refine ⟨events, ?_⟩
    rw [step, haccept, stamped_sourceEvent]
    exact ⟨h.published, h.live, h.drops, h.ended⟩
  | launchJob path =>
    refine ⟨[], .nothing ?_ ?_⟩
    · simp only [step, launchFlow]
      split <;> rfl
    · simp only [step, launchFlow]
      split <;> rfl
  | userActorJob => exact ⟨[], .nothing rfl rfl⟩
  | statisticsRecv =>
    refine ⟨[], .nothing ?_ ?_⟩
    · simp only [step, statisticsRecv]
      split <;> rfl
    · simp only [step, statisticsRecv]
      split <;> rfl
  | scoreRaised score => exact ⟨[], .nothing rfl rfl⟩

theorem published_step (agent : Pipeline) (op : TrackerOp) :
    (trackerStep lower config agent op).published =
      agent.published ++ emitted agent (trackerStep lower config agent op) := by
  cases op with
  | expect image => simp [trackerStep, emitted]
  | source event now =>
    obtain ⟨events, haccounts⟩ := @handleSource_accounts lower config agent now event
    simp [trackerStep, emitted, haccounts.published]

end

end SecOutfall.Agent
