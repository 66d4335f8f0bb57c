import SecOutfall.Agent.Scope

/-! The agent's pipeline on source telemetry: `ScopeTrackerPlugin`, `TargetLauncherPlugin`,
`UserActorSupervisorPlugin` and `StatisticsPlugin`, with the bus and the launch queues between them.

The other middleware (session manager, reporter, screenshot intake) passes a source event on and
touches nothing these four read. Launch jobs and the bus consumer of the statistics run on tasks
of their own, so they are steps of their own. -/
namespace SecOutfall.Agent
set_option autoImplicit false

/-! ## Events -/

/-- Source telemetry; `other` stands for the variants no consumer here looks into (threads,
images, registry, network, protection, and file events but writes, closes and cleanups). -/
inductive SourceEvent where
  | processStarted (data : ProcessStartedData)
  | processStopped (data : ProcessStoppedData)
  | fileWritten (data : FileData)
  | fileClosed (data : FileData)
  | fileCleanedUp (data : FileData)
  | behaviorCall (data : BehaviorCallData)
  | other
  deriving DecidableEq, Repr

inductive SandboxEvent where
  | source (event : SourceEvent)
  | sourceDated (event : SourceEvent) (eventTs : ℤ)
  | sessionDeadline
  | serviceStop
  | screenshotReceived
  | persistTick
  | statsTick
  deriving DecidableEq, Repr

def SandboxEvent.sourceEvent : SandboxEvent → Option SourceEvent
  | .source event => some event
  | .sourceDated event _ => some event
  | _ => none

inductive AgentBusEvent where
  | targetLaunched (name : String)
  | processEnteredScope (pid : UInt32) (name : String)
  | processExitedScope (pid : UInt32) (name : String)
  | dropObserved (path : String) (pid : Option UInt32)
  | dropClosed (path : String)
  | scopeDied
  | extendScopeExpectation (name : String)
  | behaviorObserved (pid api : UInt32)
  | sessionScoreRaised (score : UInt32)
  deriving DecidableEq, Repr

/-! ## Bus and job queues -/

/-- The broadcast channel: everything published, and how much of it a slow receiver still gets. -/
structure Bus where
  capacity : ℕ
  log : List AgentBusEvent

/-- What a receiver at `next` gets until the channel is empty; older events are lag. -/
def Bus.unread (bus : Bus) (next : ℕ) : List AgentBusEvent :=
  bus.log.drop (max next (bus.log.length - bus.capacity))

def Bus.publish (bus : Bus) (events : List AgentBusEvent) : Bus :=
  { bus with log := bus.log ++ events }

def launchQueueCapacity : ℕ := 8

structure JobQueue (α : Type) where
  pending : List α
  dropped : ℕ

def JobQueue.submit {α : Type} (queue : JobQueue α) (job : α) : Bool × JobQueue α :=
  if queue.pending.length < launchQueueCapacity then
    (true, { queue with pending := queue.pending ++ [job] })
  else (false, { queue with dropped := queue.dropped + 1 })

/-- A launching plugin: its one-shot flag, its queue while started, and every job it handed over
with the queue's answer. -/
structure Launching (α : Type) where
  attempted : Bool
  queue : Option (JobQueue α)
  submissions : List (α × Bool)

/-- `self.queue.lock().as_ref().is_some_and(|queue| queue.handle().submit(job))`. -/
def Launching.submit {α : Type} (plugin : Launching α) (job : α) : Launching α :=
  match plugin.queue with
  | none => { plugin with submissions := plugin.submissions ++ [(job, false)] }
  | some queue =>
    let (accepted, queue) := queue.submit job
    { plugin with queue := some queue, submissions := plugin.submissions ++ [(job, accepted)] }

def Launching.take {α : Type} (plugin : Launching α) : Option α × Launching α :=
  match plugin.queue with
  | none => (none, plugin)
  | some queue =>
    match queue.pending with
    | [] => (none, plugin)
    | job :: rest => (some job, { plugin with queue := some { queue with pending := rest } })

/-! ## State -/

structure LaunchSpec where
  path : String
  args : List String
  deriving DecidableEq, Repr

/-- What the plugins read of the configuration; `userActorSpec` is what `launch_spec` builds. -/
structure Config where
  nonS0Process : String
  targetName : String
  everySession : Bool
  filter : DropFilter
  userActorSpec : LaunchSpec

structure Statistics where
  sourceEvents : ℕ
  screenshots : ℕ
  lifecycleEvents : ℕ
  dropsObserved : ℕ
  scopeEntered : ℕ
  scopeExited : ℕ
  ticks : ℕ
  deriving DecidableEq, Repr

/-- `published` is the tracker's share of the bus log. -/
structure Pipeline where
  state : ScopeState
  tracker : ScopeTracker
  expectations : ℕ
  bus : Bus
  published : List AgentBusEvent
  targetLauncher : Launching Unit
  supervisor : Launching LaunchSpec
  statistics : Statistics
  statisticsNext : ℕ

section
variable (lower : String → String) (config : Config)

/-- The plugins after `start`, over the state the session manager's `init` left. -/
def boot (state : ScopeState) (busCapacity : ℕ) : Pipeline where
  state := state
  tracker :=
    if state.sessions.length = 1 || config.everySession then
      ScopeTracker.expect lower ⟨[], []⟩ config.targetName
    else ⟨[], []⟩
  expectations := 0
  bus := ⟨busCapacity, []⟩
  published := []
  targetLauncher := ⟨false, some ⟨[], 0⟩, []⟩
  supervisor := ⟨false, some ⟨[], 0⟩, []⟩
  statistics := ⟨0, 0, 0, 0, 0, 0, 0⟩
  statisticsNext := 0

/-! ## Scope tracker -/

def drainExpectations (agent : Pipeline) : Pipeline :=
  let tracker := (agent.bus.unread agent.expectations).foldl
    (fun tracker event =>
      match event with
      | .extendScopeExpectation name => tracker.expect lower name
      | _ => tracker) agent.tracker
  { agent with tracker, expectations := agent.bus.log.length }

def Pipeline.publish (agent : Pipeline) (events : List AgentBusEvent) : Pipeline :=
  { agent with bus := agent.bus.publish events, published := agent.published ++ events }

def isScoringRelevant (api : UInt32) : Bool :=
  api == 4 || api == 7 || api == 9 || api == 10 || api == 12

def handleSource (agent : Pipeline) (now : ℤ) : SourceEvent → Pipeline
  | .processStarted data =>
    let (entered, state) := agent.tracker.processEntered lower agent.state data now
    let agent := { agent with state }
    if entered then
      agent.publish
        ((if lower data.name == lower config.targetName then [.targetLaunched data.name] else []) ++
          [.processEnteredScope data.pid data.name])
    else agent
  | .processStopped data =>
    let (wasScoped, state) := ScopeTracker.processExited agent.state data now
    let agent := { agent with state }
    let dead := ScopeTracker.scopeDead state
    if wasScoped then
      agent.publish (.processExitedScope data.pid data.name :: if dead then [.scopeDied] else [])
    else agent
  | .fileWritten data =>
    let (observed, state) := ScopeTracker.dropObserved lower agent.state data config.filter
    let agent := { agent with state }
    match observed with
    | some path => agent.publish [.dropObserved path (some data.pid)]
    | none => agent
  | .behaviorCall data =>
    if isScoringRelevant data.api && ScopeTracker.isScoped agent.state data.pid then
      agent.publish [.behaviorObserved data.pid data.api]
    else agent
  | .fileClosed data | .fileCleanedUp data =>
    let (closed, tracker) := agent.tracker.dropClosed agent.state data
    let agent := { agent with tracker }
    match closed with
    | some path => agent.publish [.dropClosed path]
    | none => agent
  | .other => agent

def scopeTrackerPre (agent : Pipeline) (now : ℤ) (event : SandboxEvent) : Pipeline :=
  let agent := drainExpectations lower agent
  match event.sourceEvent with
  | some source => handleSource lower config agent now source
  | none => agent

/-! ## Launchers -/

def shouldLaunch (agent : Pipeline) : Bool := agent.state.sessions.length == 1 || config.everySession

def targetLauncherPre (agent : Pipeline) (event : SandboxEvent) : Pipeline :=
  match event with
  | .source (.processStarted data) =>
    if isMarkerProcess config.nonS0Process data.name && !agent.targetLauncher.attempted then
      let launcher := { agent.targetLauncher with attempted := true }
      { agent with
        targetLauncher := if shouldLaunch config agent then launcher.submit () else launcher }
    else agent
  | _ => agent

def supervisorPre (agent : Pipeline) (event : SandboxEvent) : Pipeline :=
  match event with
  | .source (.processStarted data) =>
    if isMarkerProcess config.nonS0Process data.name && !agent.supervisor.attempted then
      let supervisor := { agent.supervisor with attempted := true }
      { agent with supervisor := supervisor.submit config.userActorSpec }
    else agent
  | _ => agent

/-- `launch_flow` as far as the bus sees it; `path` is the resolved spec's, if there is one. -/
def launchFlow (agent : Pipeline) (path : Option String) : Pipeline :=
  let (job, targetLauncher) := agent.targetLauncher.take
  let agent := { agent with targetLauncher }
  match job, path with
  | some _, some path =>
    { agent with bus := agent.bus.publish [.extendScopeExpectation (imageName path)] }
  | _, _ => agent

/-! ## Statistics -/

def statisticsPre (agent : Pipeline) (event : SandboxEvent) : Pipeline :=
  let stats := agent.statistics
  { agent with
    statistics :=
      match event with
      | .source _ | .sourceDated _ _ => { stats with sourceEvents := stats.sourceEvents + 1 }
      | .screenshotReceived => { stats with screenshots := stats.screenshots + 1 }
      | .statsTick => { stats with ticks := stats.ticks + 1 }
      | .persistTick | .sessionDeadline | .serviceStop =>
        { stats with lifecycleEvents := stats.lifecycleEvents + 1 } }

def countBusEvent (stats : Statistics) : AgentBusEvent → Statistics
  | .dropObserved _ _ => { stats with dropsObserved := stats.dropsObserved + 1 }
  | .processEnteredScope _ _ => { stats with scopeEntered := stats.scopeEntered + 1 }
  | .processExitedScope _ _ => { stats with scopeExited := stats.scopeExited + 1 }
  | _ => stats

def statisticsRecv (agent : Pipeline) : Pipeline :=
  match agent.bus.unread agent.statisticsNext with
  | [] => agent
  | event :: rest =>
    { agent with
      statistics := countBusEvent agent.statistics event
      statisticsNext := agent.bus.log.length - rest.length }

/-! ## Steps -/

/-- `KernelService::accept` on the four plugins, in middleware order. -/
def accept (agent : Pipeline) (now : ℤ) (event : SandboxEvent) : Pipeline :=
  let agent := scopeTrackerPre lower config agent now event
  let agent := targetLauncherPre config agent event
  let agent := supervisorPre config agent event
  statisticsPre agent event

inductive Op where
  | source (event : SourceEvent) (eventTs : Option ℤ) (now : ℤ)
  | launchJob (path : Option String)
  | userActorJob
  | statisticsRecv
  | scoreRaised (score : UInt32)
  deriving DecidableEq, Repr

def stamped (event : SourceEvent) : Option ℤ → SandboxEvent
  | none => .source event
  | some eventTs => .sourceDated event eventTs

def step (agent : Pipeline) : Op → Pipeline
  | .source event eventTs now => accept lower config agent now (stamped event eventTs)
  | .launchJob path => launchFlow agent path
  | .userActorJob => { agent with supervisor := agent.supervisor.take.2 }
  | .statisticsRecv => statisticsRecv agent
  | .scoreRaised score => { agent with bus := agent.bus.publish [.sessionScoreRaised score] }

end

end SecOutfall.Agent
