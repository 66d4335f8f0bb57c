import SecOutfall.Agent.Pipeline
import SecOutfall.Foundations.Runs

/-! Telemetry stamped at consumption against telemetry with a time of its own.

Tracker and statistics unwrap both kinds of source event. The two launchers match the plain kind
only, so a boot whose process starts all come dated launches neither the target nor the user
actor. -/
namespace SecOutfall.Agent
open Runs
set_option autoImplicit false

/-! ## Redating a run -/

def Op.redate (eventTs : ℤ) : Op → Op
  | .source event none now => .source event (some eventTs) now
  | op => op

def redate (eventTs : ℕ → ℤ) : List Op → List Op
  | [] => []
  | op :: ops => op.redate (eventTs 0) :: redate (fun i => eventTs (i + 1)) ops

/-- What a run shows: launch submissions, the tracker's bus events, the counters. -/
structure Outputs where
  targetLaunches : List (Unit × Bool)
  userActorLaunches : List (LaunchSpec × Bool)
  published : List AgentBusEvent
  statistics : Statistics
  deriving DecidableEq, Repr

def Pipeline.outputs (agent : Pipeline) : Outputs :=
  ⟨agent.targetLauncher.submissions, agent.supervisor.submissions, agent.published, agent.statistics⟩

def PlainMarker (config : Config) : Op → Prop
  | .source (.processStarted data) none _ => isMarkerProcess config.nonS0Process data.name = true
  | _ => False

section
variable (lower : String → String) (config : Config)

/-! ## Runs without a plain marker -/

theorem targetLauncherPre_of_not_marker {agent : Pipeline} {event : SourceEvent} {now : ℤ}
    (h : ¬ PlainMarker config (.source event none now)) :
    targetLauncherPre config agent (.source event) = agent := by
  cases event with
  | processStarted data =>
    have hname : isMarkerProcess config.nonS0Process data.name = false := Bool.eq_false_iff.mpr h
    simp [targetLauncherPre, hname]
  | _ => rfl

theorem supervisorPre_of_not_marker {agent : Pipeline} {event : SourceEvent} {now : ℤ}
    (h : ¬ PlainMarker config (.source event none now)) :
    supervisorPre config agent (.source event) = agent := by
  cases event with
  | processStarted data =>
    have hname : isMarkerProcess config.nonS0Process data.name = false := Bool.eq_false_iff.mpr h
    simp [supervisorPre, hname]
  | _ => rfl

/-- Only the launchers tell the two kinds apart. -/
theorem step_redate (agent : Pipeline) (eventTs : ℤ) {op : Op} (h : ¬ PlainMarker config op) :
    step lower config agent (op.redate eventTs) = step lower config agent op := by
  match op with
  | .source event none now =>
    simp only [Op.redate, step, stamped, accept, targetLauncherPre_of_not_marker config h,
      supervisorPre_of_not_marker config h]
    rfl
  | .source _ (some _) _ | .launchJob _ | .userActorJob | .statisticsRecv | .scoreRaised _ => rfl

theorem run_redate {agent : Pipeline} {ops : List Op} (h : ∀ op ∈ ops, ¬ PlainMarker config op)
    (eventTs : ℕ → ℤ) :
    run (step lower config) agent (redate eventTs ops) = run (step lower config) agent ops := by
  induction ops generalizing agent eventTs with
  | nil => rfl
  | cons op ops ih =>
    rw [List.forall_mem_cons] at h
    rw [redate, run_cons, run_cons, step_redate lower config agent _ h.1, ih h.2]

/-! ## What reaches the supervisor -/

theorem handleSource_supervisor (agent : Pipeline) (now : ℤ) (event : SourceEvent) :
    (handleSource lower config agent now event).supervisor = agent.supervisor := by
  cases event <;> simp only [handleSource] <;> split <;> rfl

theorem scopeTrackerPre_supervisor (agent : Pipeline) (now : ℤ) (event : SandboxEvent) :
    (scopeTrackerPre lower config agent now event).supervisor = agent.supervisor := by
  unfold scopeTrackerPre
  simp only
  split
  · rw [handleSource_supervisor]
    rfl
  · rfl

theorem targetLauncherPre_supervisor (agent : Pipeline) (event : SandboxEvent) :
    (targetLauncherPre config agent event).supervisor = agent.supervisor := by
  unfold targetLauncherPre
  split
  · split <;> rfl
  · rfl

theorem accept_supervisor (agent : Pipeline) (now : ℤ) (event : SandboxEvent) :
    (accept lower config agent now event).supervisor = (supervisorPre config agent event).supervisor := by
  have hfront : (targetLauncherPre config (scopeTrackerPre lower config agent now event) event).supervisor =
      agent.supervisor := by
    rw [targetLauncherPre_supervisor, scopeTrackerPre_supervisor]
  simp only [accept, statisticsPre]
  unfold supervisorPre
  split
  · simp only [hfront]
    split
    · rfl
    · exact hfront
  · exact hfront

theorem Launching.submit_submissions {α : Type} (plugin : Launching α) (job : α) :
    ∃ accepted, (plugin.submit job).submissions = plugin.submissions ++ [(job, accepted)] := by
  unfold Launching.submit
  split
  · exact ⟨false, rfl⟩
  · exact ⟨_, rfl⟩

theorem Launching.take_eq {α : Type} (plugin : Launching α) :
    plugin.take.2.attempted = plugin.attempted ∧ plugin.take.2.submissions = plugin.submissions := by
  unfold Launching.take
  split
  · exact ⟨rfl, rfl⟩
  · split <;> exact ⟨rfl, rfl⟩

/-- A step submits a user-actor launch at the first plain marker, and at no other. -/
theorem step_supervisor (agent : Pipeline) (op : Op) :
    (PlainMarker config op ∧ agent.supervisor.attempted = false ∧
      ∃ accepted, (step lower config agent op).supervisor.submissions =
        agent.supervisor.submissions ++ [(config.userActorSpec, accepted)]) ∨
    ((PlainMarker config op → agent.supervisor.attempted = true) ∧
      (step lower config agent op).supervisor.attempted = agent.supervisor.attempted ∧
      (step lower config agent op).supervisor.submissions = agent.supervisor.submissions) := by
  match op with
  | .source (.processStarted data) none now =>
    simp only [step, stamped, accept_supervisor, supervisorPre, PlainMarker, Bool.and_eq_true,
      Bool.not_eq_true']
    split
    · rename_i hfirst
      obtain ⟨accepted, hsubmit⟩ :=
        Launching.submit_submissions { agent.supervisor with attempted := true } config.userActorSpec
      exact .inl ⟨hfirst.1, hfirst.2, accepted, hsubmit⟩
    · rename_i hnot
      refine .inr ⟨fun hmarker => ?_, rfl, rfl⟩
      simpa using fun hattempted => hnot ⟨hmarker, hattempted⟩
  | .source (.processStopped _) none _ | .source (.fileWritten _) none _
  | .source (.fileClosed _) none _ | .source (.fileCleanedUp _) none _
  | .source (.behaviorCall _) none _ | .source .other none _ =>
    simp [step, stamped, accept_supervisor, supervisorPre, PlainMarker]
  | .source _ (some _) _ =>
    simp [step, stamped, accept_supervisor, supervisorPre, PlainMarker]
  | .launchJob path =>
    refine .inr ⟨fun h => h.elim, ?_⟩
    simp only [step, launchFlow]
    split <;> exact ⟨rfl, rfl⟩
  | .userActorJob => exact .inr ⟨fun h => h.elim, Launching.take_eq agent.supervisor⟩
  | .statisticsRecv =>
    refine .inr ⟨fun h => h.elim, ?_⟩
    simp only [step, statisticsRecv]
    split <;> exact ⟨rfl, rfl⟩
  | .scoreRaised score => exact .inr ⟨fun h => h.elim, rfl, rfl⟩

theorem run_redate_submissions (agent : Pipeline) (ops : List Op) (eventTs : ℕ → ℤ) :
    (run (step lower config) agent (redate eventTs ops)).supervisor.submissions =
      agent.supervisor.submissions := by
  induction ops generalizing agent eventTs with
  | nil => rfl
  | cons op ops ih =>
    have hdated : ¬ PlainMarker config (op.redate (eventTs 0)) := by
      match op with
      | .source event none now => cases event <;> exact id
      | .source event (some _) now => cases event <;> exact id
      | .launchJob _ | .userActorJob | .statisticsRecv | .scoreRaised _ => exact id
    rw [redate, run_cons, ih]
    rcases step_supervisor lower config agent (op.redate (eventTs 0)) with ⟨hmarker, -⟩ | ⟨-, -, hsame⟩
    · exact absurd hmarker hdated
    · exact hsame

theorem run_marker_submits {agent : Pipeline} {ops : List Op}
    (hagent : agent.supervisor.attempted = true → agent.supervisor.submissions ≠ [])
    (h : agent.supervisor.submissions ≠ [] ∨ ∃ op ∈ ops, PlainMarker config op) :
    (run (step lower config) agent ops).supervisor.submissions ≠ [] := by
  induction ops generalizing agent with
  | nil =>
    rcases h with h | ⟨op, hop, -⟩
    · exact h
    · exact absurd hop List.not_mem_nil
  | cons op ops ih =>
    rw [run_cons]
    rcases step_supervisor lower config agent op with ⟨-, -, accepted, hsubmit⟩ | ⟨hattempted, hflag, hsame⟩
    · have hne : (step lower config agent op).supervisor.submissions ≠ [] := by simp [hsubmit]
      exact ih (fun _ => hne) (.inl hne)
    · apply ih (by rw [hflag, hsame]; exact hagent)
      rw [hsame]
      rcases h with h | ⟨marker, hmem, hmarker⟩
      · exact .inl h
      · rcases List.mem_cons.mp hmem with rfl | hrest
        · exact .inl (hagent (hattempted hmarker))
        · exact .inr ⟨marker, hrest, hmarker⟩

/-- In every boot and for all timestamps: redating a run leaves its outputs the same exactly when
the run has no plain start of the marker process. -/
theorem outputs_redate_iff (state : ScopeState) (busCapacity : ℕ) (ops : List Op) (eventTs : ℕ → ℤ) :
    (run (step lower config) (boot lower config state busCapacity) (redate eventTs ops)).outputs =
        (run (step lower config) (boot lower config state busCapacity) ops).outputs ↔
      ∀ op ∈ ops, ¬ PlainMarker config op := by
  constructor
  · intro hsame op hop hmarker
    have hplain : (run (step lower config) (boot lower config state busCapacity) ops).supervisor.submissions ≠ [] :=
      run_marker_submits lower config (fun h => by simp [boot] at h) (.inr ⟨op, hop, hmarker⟩)
    have hdated := run_redate_submissions lower config (boot lower config state busCapacity) ops eventTs
    have heq := congrArg Outputs.userActorLaunches hsame
    simp only [Pipeline.outputs] at heq
    rw [hdated] at heq
    exact hplain heq.symm
  · intro h
    rw [run_redate lower config h]

end

/-! ## A dated shell start -/

def asciiLower (s : String) : String := .ofList (s.toList.map Char.toLower)

def defaultConfig : Config := ⟨"explorer", "evil.exe", false, ⟨[]⟩, ⟨"user-actor.exe", []⟩⟩

def firstSession : ScopeState := ⟨1, [⟨0, none, 0, none, false, [], []⟩]⟩

def shellStarts : List Op := [.source (.processStarted ⟨900, none, "explorer.exe", none, none⟩) none 5]

/-- Plain, it launches the target and the user actor; dated, neither. -/
theorem dated_shell_launches_nothing :
    (run (step asciiLower defaultConfig) (boot asciiLower defaultConfig firstSession 4096) shellStarts).outputs =
      ⟨[((), true)], [(⟨"user-actor.exe", []⟩, true)], [], ⟨1, 0, 0, 0, 0, 0, 0⟩⟩ ∧
    (run (step asciiLower defaultConfig) (boot asciiLower defaultConfig firstSession 4096)
      (redate (fun _ => 5) shellStarts)).outputs ≠
      (run (step asciiLower defaultConfig) (boot asciiLower defaultConfig firstSession 4096) shellStarts).outputs := by
  decide

end SecOutfall.Agent
