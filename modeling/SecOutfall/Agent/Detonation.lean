import SecOutfall.Agent.CommandLine
import SecOutfall.Agent.TrackerRuns
import SecOutfall.Foundations.Runs

/-! The detonation: `launch_flow` of `plugins/target_launcher.rs` against the tracker that has to expect what
it launches.

The job resolves its spec, publishes the expectation and only then asks the launcher for the process. The
tracker drains the bus when an event enters and handles the event behind that; others publish in between.
The registry's answer and the launcher are parameters. -/
namespace SecOutfall.Agent
open Runs
set_option autoImplicit false

/-! ## Model -/

/-- `resolve_spec`; `openCommand` is the association port. -/
def resolveSpec (target : String) (configArgs : List String) (openCommand : String → Option String) :
    Option LaunchSpec :=
  if (extensionOf target).any fun extension => eqIgnoreAsciiCase extension.toList "exe".toList then
    some ⟨target, configArgs⟩
  else
    match (openCommand target).map splitCommandLine with
    | some (program :: launchArgs) => some ⟨program, launchArgs ++ configArgs⟩
    | _ => none

/-- The middleware behind the drain. -/
def handleDrained (lower : String → String) (config : Config) (agent : Pipeline) (now : ℤ) (event : SandboxEvent) :
    Pipeline :=
  let agent := event.sourceEvent.elim agent (handleSource lower config agent now)
  statisticsPre (supervisorPre config (targetLauncherPre config agent event) event) event

/-- The agent while it detonates: `entered` is the event the tracker has drained for and not handled, with the
specs created by then; `launching` is the spec whose expectation is out and whose process is not; `created`
lists the specs a process was created of. -/
structure Detonation where
  agent : Pipeline
  entered : Option (SandboxEvent × List LaunchSpec)
  launching : Option LaunchSpec
  created : List LaunchSpec

def Detonation.initial (lower : String → String) (config : Config) (state : ScopeState) : Detonation :=
  ⟨boot lower config state 4096, none, none, []⟩

inductive DetonationOp where
  | enter (event : SandboxEvent)
  | handle (now : ℤ)
  | scoreRaised (score : UInt32)
  | statisticsRecv
  | userActorJob
  | finalizeStamp (nowMs : ℤ)
  | launchJob
  | create
  deriving DecidableEq, Repr

section
variable (lower : String → String) (config : Config) (target : String) (configArgs : List String)
  (openCommand : String → Option String) (creates : LaunchSpec → Bool)

def detonationStep (s : Detonation) : DetonationOp → Detonation
  | .enter event =>
    match s.entered with
    | none => { s with agent := drainExpectations lower s.agent, entered := some (event, s.created) }
    | some _ => s
  | .handle now =>
    match s.entered with
    | none => s
    | some (event, _) => { s with agent := handleDrained lower config s.agent now event, entered := none }
  | .scoreRaised score => { s with agent := Agent.step lower config s.agent (.scoreRaised score) }
  | .statisticsRecv => { s with agent := Agent.step lower config s.agent .statisticsRecv }
  | .userActorJob => { s with agent := Agent.step lower config s.agent .userActorJob }
  | .finalizeStamp nowMs =>
    { s with agent := { s.agent with state := s.agent.state.updateCurrent (stampEnded nowMs) } }
  | .launchJob =>
    match s.launching, s.agent.targetLauncher.take.1 with
    | none, some _ =>
      let spec := resolveSpec target configArgs openCommand
      { s with agent := launchFlow s.agent (spec.map (·.path)), launching := spec }
    | _, _ => s
  | .create =>
    match s.launching with
    | none => s
    | some spec =>
      { s with launching := none, created := if creates spec then s.created ++ [spec] else s.created }

/-! ## Admission -/

/-- The process enters the scope and is in it. -/
def Admitted (s s' : Detonation) (data : ProcessStartedData) : Prop :=
  .processEnteredScope data.pid data.name ∈ emitted s.agent s'.agent ∧
    ScopeTracker.isScoped s'.agent.state data.pid = true

/-- A start that entered under the name of something created is admitted. -/
def AdmitsLaunched (s : Detonation) (op : DetonationOp) : Prop :=
  ∀ now event created data, op = .handle now → s.entered = some (event, created) →
    event.sourceEvent = some (.processStarted data) →
      ∀ spec ∈ created, lower data.name = lower (imageName spec.path) →
        Admitted s (detonationStep lower config target configArgs openCommand creates s op) data

/-- From one event that enters to the next at most 4096 bus events come. -/
def keepsUp (s : Detonation) : DetonationOp → Bool
  | .enter _ => s.agent.bus.log.length ≤ s.agent.expectations + 4096
  | _ => true

end

/-! ## The expectation -/

section
variable {lower : String → String} {config : Config} {target : String} {configArgs : List String}
  {openCommand : String → Option String} {creates : LaunchSpec → Bool}

/-- The name is expected, or will be when the tracker has drained the bus. -/
def Expecting (lower : String → String) (agent : Pipeline) (name : String) : Prop :=
  lower name ∈ agent.tracker.expected ∨
    .extendScopeExpectation name ∈ agent.bus.log.drop agent.expectations

theorem expect_expected (tracker : ScopeTracker) (image : String) :
    (∀ name ∈ tracker.expected, name ∈ (tracker.expect lower image).expected) ∧
      (lower image ≠ "" → lower image ∈ (tracker.expect lower image).expected) := by
  unfold ScopeTracker.expect
  dsimp only
  split
  case isTrue hskip =>
    refine ⟨fun _ => id, fun hne => ?_⟩
    obtain hempty | hknown := Bool.or_eq_true _ _ |>.mp hskip
    · exact absurd (by simpa using hempty) hne
    · exact List.contains_iff_mem.mp hknown
  case isFalse => exact ⟨fun name hname => List.mem_append_left _ hname, fun _ => List.mem_append_right _ (by simp)⟩

/-- Draining expects every name on the list, and forgets none. -/
theorem drain_expected (events : List AgentBusEvent) (tracker : ScopeTracker) :
    (∀ name ∈ tracker.expected, name ∈ (events.foldl
        (fun tracker event =>
          match event with
          | .extendScopeExpectation name => tracker.expect lower name
          | _ => tracker) tracker).expected) ∧
      ∀ name, .extendScopeExpectation name ∈ events → lower name ≠ "" → lower name ∈ (events.foldl
        (fun tracker event =>
          match event with
          | .extendScopeExpectation name => tracker.expect lower name
          | _ => tracker) tracker).expected := by
  induction events generalizing tracker with
  | nil => exact ⟨fun _ => id, nofun⟩
  | cons event events ih =>
    rw [List.foldl_cons]
    cases event with
    | extendScopeExpectation image =>
      obtain ⟨hkeep, hnew⟩ := @expect_expected lower tracker image
      obtain ⟨hkeeps, hall⟩ := ih (tracker.expect lower image)
      refine ⟨fun name hname => hkeeps name (hkeep name hname), fun name hname hne => ?_⟩
      obtain heq | hrest := List.mem_cons.mp hname
      · cases heq
        exact hkeeps _ (hnew hne)
      · exact hall name hrest hne
    | _ =>
      obtain ⟨hkeeps, hall⟩ := ih tracker
      refine ⟨hkeeps, fun name hname hne => ?_⟩
      obtain heq | hrest := List.mem_cons.mp hname
      · cases heq
      · exact hall name hrest hne

/-- What the detonation relies on between two states of the agent. -/
structure Keeps (lower : String → String) (agent agent' : Pipeline) : Prop where
  capacity : agent'.bus.capacity = agent.bus.capacity
  received : agent.expectations ≤ agent.bus.log.length → agent'.expectations ≤ agent'.bus.log.length
  session : agent.state.currentSession.isSome → agent'.state.currentSession.isSome
  expected : ∀ name ∈ agent.tracker.expected, name ∈ agent'.tracker.expected
  expecting : ∀ name, lower name ≠ "" → Expecting lower agent name → Expecting lower agent' name

theorem drainExpectations_keeps {agent : Pipeline}
    (hlag : agent.bus.log.length ≤ agent.expectations + agent.bus.capacity) :
    Keeps lower agent (drainExpectations lower agent) ∧
      ∀ name, lower name ≠ "" → Expecting lower agent name →
        lower name ∈ (drainExpectations lower agent).tracker.expected := by
  have hunread : agent.bus.unread agent.expectations = agent.bus.log.drop agent.expectations := by
    rw [Bus.unread, Nat.max_eq_left (by omega)]
  obtain ⟨hkeeps, hall⟩ := @drain_expected lower (agent.bus.log.drop agent.expectations) agent.tracker
  rw [← hunread] at hkeeps hall
  have hdrained (name : String) (hne : lower name ≠ "") (h : Expecting lower agent name) :
      lower name ∈ (drainExpectations lower agent).tracker.expected := by
    obtain hknown | hpending := h
    · exact hkeeps _ hknown
    · exact hall name (hunread ▸ hpending) hne
  refine ⟨?_, hdrained⟩
  constructor
  case capacity => rfl
  case received => exact fun _ => Nat.le_refl _
  case session => exact id
  case expected => exact hkeeps
  case expecting => exact fun name hne h => .inl (hdrained name hne h)

/-- Whatever only publishes and keeps the session and the expected names. -/
theorem Keeps.publish {agent agent' : Pipeline} {events : List AgentBusEvent}
    (hbus : agent'.bus = agent.bus.publish events) (hexpectations : agent'.expectations = agent.expectations)
    (hexpected : agent'.tracker.expected = agent.tracker.expected)
    (hsession : agent.state.currentSession.isSome → agent'.state.currentSession.isSome) :
    Keeps lower agent agent' := by
  constructor
  case capacity => rw [hbus, Bus.publish]
  case received =>
    intro hreceived
    rw [hbus, hexpectations, Bus.publish, List.length_append]
    omega
  case session => exact hsession
  case expected => exact hexpected ▸ fun _ => id
  case expecting =>
    rintro name - (hknown | hpending)
    · exact .inl (hexpected ▸ hknown)
    · refine .inr ?_
      rw [hbus, hexpectations, Bus.publish, List.drop_append]
      exact List.mem_append_left _ hpending

theorem Tracked.session {filter : DropFilter} {now : ℤ} {state state' : ScopeState}
    (h : Tracked lower filter now state state') (hsession : state.currentSession.isSome) :
    state'.currentSession.isSome := by
  obtain ⟨f, rfl, _⟩ := h.updates
  rw [updateCurrent_currentSession, Option.isSome_map]
  exact hsession

theorem dropClosed_expected (tracker : ScopeTracker) (state : ScopeState) (data : FileData) :
    (tracker.dropClosed state data).2.expected = tracker.expected := by
  unfold ScopeTracker.dropClosed
  cases data.fileName with
  | none => rfl
  | some path =>
    dsimp only
    split_ifs <;> rfl

theorem handleSource_keeps (agent : Pipeline) (now : ℤ) (event : SourceEvent) :
    Keeps lower agent (handleSource lower config agent now event) := by
  refine .publish (handleSource_bus agent now event) ?_ ?_ (handleSource_tracked agent now event).session
  · cases event with
    | other => rfl
    | _ =>
      simp only [handleSource]
      split <;> rfl
  · rw [handleSource_tracker]
    cases event with
    | fileClosed data | fileCleanedUp data => exact dropClosed_expected _ _ _
    | _ => rfl

theorem handleDrained_eq (agent : Pipeline) (now : ℤ) (event : SandboxEvent) :
    ∃ targetLauncher supervisor statistics,
      handleDrained lower config agent now event =
        { event.sourceEvent.elim agent (handleSource lower config agent now) with
          targetLauncher, supervisor, statistics } :=
  launchers_frame _ event

theorem accept_drained (agent : Pipeline) (now : ℤ) (event : SandboxEvent) :
    accept lower config agent now event = handleDrained lower config (drainExpectations lower agent) now event := by
  unfold accept handleDrained scopeTrackerPre
  cases event.sourceEvent <;> rfl

theorem handleDrained_keeps (agent : Pipeline) (now : ℤ) (event : SandboxEvent) :
    Keeps lower agent (handleDrained lower config agent now event) := by
  obtain ⟨_, _, _, hframe⟩ := @handleDrained_eq lower config agent now event
  have hkeeps : Keeps lower agent (event.sourceEvent.elim agent (handleSource lower config agent now)) := by
    cases event.sourceEvent with
    | none => exact ⟨rfl, id, id, fun _ => id, fun _ _ => id⟩
    | some source => exact handleSource_keeps agent now source
  rw [hframe]
  exact ⟨hkeeps.capacity, hkeeps.received, hkeeps.session, hkeeps.expected, hkeeps.expecting⟩

/-- Under an expected name a process enters, while there is a session. -/
theorem processStarted_admitted {agent : Pipeline} {data : ProcessStartedData} (now : ℤ)
    (hexpected : lower data.name ∈ agent.tracker.expected) (hsession : agent.state.currentSession.isSome) :
    .processEnteredScope data.pid data.name ∈
        emitted agent (handleSource lower config agent now (.processStarted data)) ∧
      ScopeTracker.isScoped (handleSource lower config agent now (.processStarted data)).state data.pid = true := by
  obtain ⟨session, hcurrent⟩ := Option.isSome_iff_exists.mp hsession
  have henters : (agent.tracker.processEntered lower agent.state data now).1 = true := by
    simp [ScopeTracker.processEntered, hcurrent, hexpected]
  rw [emitted_started, if_pos henters, handleSource_state]
  refine ⟨List.mem_append_right _ (List.mem_singleton.mpr rfl), ?_⟩
  obtain hnot | ⟨current, process, hcurrent, hpid, hended, heq⟩ :=
    @processEntered_cases lower agent.tracker agent.state data now
  · rw [hnot] at henters
    cases henters
  · dsimp only
    rw [heq, isScoped_iff, processesOf_updateCurrent _ hcurrent]
    exact ⟨process, List.mem_append_right _ (List.mem_singleton.mpr rfl), hpid, hended⟩

/-! ## Runs -/

/-- Everything launched is expected by the time its process can be created. -/
structure Detonation.Ready (lower : String → String) (s : Detonation) : Prop where
  capacity : s.agent.bus.capacity = 4096
  received : s.agent.expectations ≤ s.agent.bus.log.length
  session : s.agent.state.currentSession.isSome
  launching : ∀ spec ∈ s.launching, imageName spec.path ≠ "" → Expecting lower s.agent (imageName spec.path)
  created : ∀ spec ∈ s.created, imageName spec.path ≠ "" ∧ Expecting lower s.agent (imageName spec.path)
  entered : ∀ event created, s.entered = some (event, created) →
    ∀ spec ∈ created, lower (imageName spec.path) ∈ s.agent.tracker.expected

section
variable {s : Detonation} {agent : Pipeline}

theorem Detonation.Ready.keeps (hlower : ∀ name, lower name = "" → name = "") (h : s.Ready lower)
    (hkeeps : Keeps lower s.agent agent) : { s with agent }.Ready lower := by
  constructor
  case capacity => exact hkeeps.capacity.trans h.capacity
  case received => exact hkeeps.received h.received
  case session => exact hkeeps.session h.session
  case launching =>
    exact fun spec hspec hne => hkeeps.expecting _ (fun he => hne (hlower _ he)) (h.launching spec hspec hne)
  case created =>
    intro spec hspec
    obtain ⟨hne, hexpecting⟩ := h.created spec hspec
    exact ⟨hne, hkeeps.expecting _ (fun he => hne (hlower _ he)) hexpecting⟩
  case entered => exact fun event created hentered spec hspec => hkeeps.expected _ (h.entered event created hentered spec hspec)

/-- The job publishes before it asks for the process. -/
theorem Detonation.Ready.launch (hlower : ∀ name, lower name = "" → name = "") (h : s.Ready lower) {spec : LaunchSpec}
    (hjob : s.agent.targetLauncher.take.1.isSome) :
    { s with agent := launchFlow s.agent (some spec.path), launching := some spec }.Ready lower := by
  obtain ⟨job, hjob⟩ := Option.isSome_iff_exists.mp hjob
  have hflow : launchFlow s.agent (some spec.path) =
      { s.agent with
        targetLauncher := s.agent.targetLauncher.take.2
        bus := s.agent.bus.publish [.extendScopeExpectation (imageName spec.path)] } := by
    simp only [launchFlow, hjob]
  have hready : { s with agent := launchFlow s.agent (some spec.path) }.Ready lower := by
    refine h.keeps hlower ?_
    rw [hflow]
    exact .publish rfl rfl rfl id
  refine { hready with launching := ?_ }
  rintro _ ⟨⟩ -
  refine .inr ?_
  rw [hflow]
  simp only [Bus.publish]
  rw [List.drop_append_of_le_length h.received]
  exact List.mem_append_right _ (List.mem_singleton.mpr rfl)

theorem Detonation.Ready.step (hlower : ∀ name, lower name = "" → name = "")
    (hcreates : ∀ spec, creates spec = true → imageName spec.path ≠ "") (h : s.Ready lower) {op : DetonationOp}
    (hup : keepsUp s op = true) :
    (detonationStep lower config target configArgs openCommand creates s op).Ready lower := by
  cases op with
  | enter event =>
    cases hentered : s.entered with
    | some entered => simpa only [detonationStep, hentered] using h
    | none =>
      have hlag : s.agent.bus.log.length ≤ s.agent.expectations + s.agent.bus.capacity := by
        rw [h.capacity]
        exact of_decide_eq_true hup
      obtain ⟨hkeeps, hdrained⟩ := @drainExpectations_keeps lower s.agent hlag
      simp only [detonationStep, hentered]
      refine { h.keeps hlower hkeeps with entered := ?_ }
      rintro _ _ ⟨⟩ spec hspec
      obtain ⟨hne, hexpecting⟩ := h.created spec hspec
      exact hdrained _ (fun he => hne (hlower _ he)) hexpecting
  | handle now =>
    cases hentered : s.entered with
    | none => simpa only [detonationStep, hentered] using h
    | some entered =>
      simp only [detonationStep, hentered]
      exact { h.keeps hlower (handleDrained_keeps s.agent now entered.1) with entered := fun _ _ h => by cases h }
  | scoreRaised score => exact h.keeps hlower (.publish rfl rfl rfl id)
  | statisticsRecv =>
    refine h.keeps hlower ?_
    simp only [Agent.step, Agent.statisticsRecv]
    split <;> exact .publish (Bus.publish_nil _).symm rfl rfl id
  | userActorJob => exact h.keeps hlower (.publish (Bus.publish_nil _).symm rfl rfl id)
  | finalizeStamp nowMs =>
    refine h.keeps hlower (.publish (Bus.publish_nil _).symm rfl rfl fun hsession => ?_)
    rw [updateCurrent_currentSession, Option.isSome_map]
    exact hsession
  | launchJob =>
    cases hlaunching : s.launching with
    | some spec => simpa only [detonationStep, hlaunching] using h
    | none =>
      cases hjob : s.agent.targetLauncher.take.1 with
      | none => simpa only [detonationStep, hlaunching, hjob] using h
      | some job =>
        simp only [detonationStep, hlaunching, hjob]
        cases resolveSpec target configArgs openCommand with
        | some spec => exact h.launch hlower (hjob ▸ rfl)
        | none =>
          have hkeeps : Keeps lower s.agent (launchFlow s.agent none) := by
            simp only [launchFlow, hjob]
            exact .publish (Bus.publish_nil _).symm rfl rfl id
          exact { h.keeps hlower hkeeps with launching := fun _ h => by cases h }
  | create =>
    cases hlaunching : s.launching with
    | none => simpa only [detonationStep, hlaunching] using h
    | some spec =>
      simp only [detonationStep, hlaunching]
      refine { h with launching := fun _ h => (by cases h), created := ?_ }
      dsimp only
      split
      case isFalse => exact h.created
      case isTrue hcreated =>
        intro spec' hspec'
        obtain hold | hnew := List.mem_append.mp hspec'
        · exact h.created spec' hold
        · obtain rfl := List.mem_singleton.mp hnew
          exact ⟨hcreates _ hcreated, h.launching _ hlaunching (hcreates _ hcreated)⟩

theorem Detonation.Ready.admits (h : s.Ready lower) (op : DetonationOp) :
    AdmitsLaunched lower config target configArgs openCommand creates s op := by
  rintro now event created data rfl hentered hevent spec hspec hname
  have hexpected : lower data.name ∈ s.agent.tracker.expected := hname ▸ h.entered event created hentered spec hspec
  obtain ⟨_, _, _, hframe⟩ := @handleDrained_eq lower config s.agent now event
  obtain ⟨hemitted, hscoped⟩ := @processStarted_admitted lower config s.agent data now hexpected h.session
  rw [hevent, Option.elim_some] at hframe
  rw [Admitted]
  simp only [detonationStep, hentered, hframe]
  exact ⟨hemitted, hscoped⟩

end

theorem initial_ready (state : ScopeState) (hsession : state.currentSession.isSome) :
    (Detonation.initial lower config state).Ready lower := by
  constructor
  case capacity => rfl
  case received => exact Nat.le_refl _
  case session => exact hsession
  case launching => exact nofun
  case created => exact nofun
  case entered => exact nofun

/-- Whatever is launched joins the scope. -/
theorem launched_admitted (hlower : ∀ name, lower name = "" → name = "")
    (hcreates : ∀ spec, creates spec = true → imageName spec.path ≠ "") (session : SessionConfig) (nowMs : ℤ)
    (state : ScopeState) (ops : List DetonationOp)
    (hup : Along (detonationStep lower config target configArgs openCommand creates)
      (fun s op => keepsUp s op = true) (.initial lower config (openSessionIfNeeded session nowMs state)) ops) :
    Along (detonationStep lower config target configArgs openCommand creates)
      (AdmitsLaunched lower config target configArgs openCommand creates)
      (.initial lower config (openSessionIfNeeded session nowMs state)) ops := by
  have hopened : (openSessionIfNeeded session nowMs state).currentSession.isSome := by
    simp [openSessionIfNeeded, ScopeState.currentSession]
  have hready := @initial_ready lower config _ hopened
  refine along_iff_forall.mpr fun before op after heq => ?_
  have hbefore := (along_append.mp (heq ▸ hup)).1
  exact (hbefore.invariant (fun s op h hop => h.step hlower hcreates hop) hready).admits op

end

/-- The script host of a dropped script starts in session 1 and is admitted. -/
theorem scriptHost_admitted :
    Along
      (detonationStep id ⟨"explorer.exe", "evil.js", false, ⟨[.all]⟩, ⟨"actor.exe", []⟩⟩ "C:\\evil.js" ["/x"]
        (fun target => some ("\"C:\\Windows\\wscript.exe\" \"" ++ target ++ "\""))
        fun spec => !(imageName spec.path).toList.isEmpty)
      (AdmitsLaunched id ⟨"explorer.exe", "evil.js", false, ⟨[.all]⟩, ⟨"actor.exe", []⟩⟩ "C:\\evil.js" ["/x"]
        (fun target => some ("\"C:\\Windows\\wscript.exe\" \"" ++ target ++ "\""))
        fun spec => !(imageName spec.path).toList.isEmpty)
      (.initial id ⟨"explorer.exe", "evil.js", false, ⟨[.all]⟩, ⟨"actor.exe", []⟩⟩
        (openSessionIfNeeded ⟨[], 0, 0, true, true⟩ 5 ⟨7, []⟩))
      [.enter (.source (.processStarted ⟨1, none, "explorer.exe", none, none⟩)), .handle 6, .launchJob, .create,
        .enter (.source (.processStarted ⟨2, none, "wscript.exe", none, none⟩)), .scoreRaised 3, .handle 8] :=
  launched_admitted (fun _ => id) (by simp) ⟨[], 0, 0, true, true⟩ 5 ⟨7, []⟩ _ (by decide +kernel)

end SecOutfall.Agent
