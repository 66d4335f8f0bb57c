import Mathlib.Data.List.Induction
import SecOutfall.Agent.TrackerRuns
import SecOutfall.Foundations.Runs

/-! Which writes and closes of a session publish a drop event, by the events before them. -/
namespace SecOutfall.Agent
open Runs
set_option autoImplicit false

/-! ## Writes and closes that count -/

section
variable (lower : String → String) (config : Config)

/-- The live scoped pid that writes the path, where the filter covers it. -/
def writer (path : String) (agent : Pipeline) : TrackerOp → Option UInt32
  | .source (.fileWritten data) _ =>
    if data.fileName == some path && ScopeTracker.isScoped agent.state data.pid && config.filter.covers lower path then
      some data.pid
    else none
  | _ => none

/-- The live scoped pid that closes the path, or cleans it up. -/
def releaser (path : String) (agent : Pipeline) : TrackerOp → Option UInt32
  | .source (.fileClosed data) _ | .source (.fileCleanedUp data) _ =>
    if data.fileName == some path && ScopeTracker.isScoped agent.state data.pid then some data.pid else none
  | _ => none

/-- Some step of the run was such a write. -/
def Observed (agent : Pipeline) (path : String) (ops : List TrackerOp) : Prop :=
  Occurs (fun earlier op => (writer lower config path (run (trackerStep lower config) agent earlier) op).isSome) ops

/-- Some step behind an observation was such a close. -/
def Released (agent : Pipeline) (path : String) (ops : List TrackerOp) : Prop :=
  Occurs (fun earlier op => (releaser path (run (trackerStep lower config) agent earlier) op).isSome ∧
    Observed lower config agent path earlier) ops

end

def TrackerOp.file : TrackerOp → Option FileData
  | .source (.fileWritten data) _ | .source (.fileClosed data) _ | .source (.fileCleanedUp data) _ => some data
  | _ => none

def closesIn (events : List AgentBusEvent) : List String :=
  events.filterMap fun
    | .dropClosed path => some path
    | _ => none

/-! ## One step -/

section
variable {lower : String → String} {config : Config}

def newDrop (lower : String → String) (config : Config) (agent : Pipeline) : TrackerOp → Option String
  | .source (.fileWritten data) _ => (ScopeTracker.dropObserved lower agent.state data config.filter).1
  | _ => none

def newClose (agent : Pipeline) : TrackerOp → Option String
  | .source (.fileClosed data) _ | .source (.fileCleanedUp data) _ =>
    (agent.tracker.dropClosed agent.state data).1
  | _ => none

theorem contains_observedDrops (state : ScopeState) (path : String) :
    (state.currentSession.any fun session => session.observedDrops.contains path) = true ↔
      path ∈ observedDrops state := by
  unfold observedDrops
  cases state.currentSession <;> simp

theorem dropObserved_eq_some (state : ScopeState) (data : FileData) (filter : DropFilter) (path : String) :
    (ScopeTracker.dropObserved lower state data filter).1 = some path ↔
      data.fileName = some path ∧ ScopeTracker.isScoped state data.pid = true ∧
        filter.covers lower path = true ∧ path ∉ observedDrops state := by
  rw [← contains_observedDrops]
  unfold ScopeTracker.dropObserved
  cases ScopeTracker.isScoped state data.pid with
  | false => simp
  | true =>
    cases data.fileName with
    | none => simp
    | some name =>
      cases hcovers : filter.covers lower name <;>
        cases state.currentSession.any fun session => session.observedDrops.contains name <;> simp <;> grind

theorem dropClosed_eq_some (tracker : ScopeTracker) (state : ScopeState) (data : FileData) (path : String) :
    (tracker.dropClosed state data).1 = some path ↔
      data.fileName = some path ∧ ScopeTracker.isScoped state data.pid = true ∧
        path ∈ observedDrops state ∧ path ∉ tracker.closed := by
  rw [← contains_observedDrops]
  unfold ScopeTracker.dropClosed
  cases data.fileName with
  | none => simp
  | some name =>
    cases ScopeTracker.isScoped state data.pid with
    | false => simp
    | true =>
      cases hknown : state.currentSession.any fun session => session.observedDrops.contains name <;>
        cases hclosed : tracker.closed.contains name <;> simp_all <;> grind

theorem newDrop_iff (agent : Pipeline) (op : TrackerOp) (path : String) :
    newDrop lower config agent op = some path ↔
      (writer lower config path agent op).isSome ∧ path ∉ observedDrops agent.state := by
  cases op with
  | expect image => simp [newDrop, writer]
  | source event now =>
    cases event with
    | fileWritten data =>
      rw [newDrop, dropObserved_eq_some, writer]
      simp [and_assoc]
    | _ => simp [newDrop, writer]

theorem newClose_iff (agent : Pipeline) (op : TrackerOp) (path : String) :
    newClose agent op = some path ↔
      (releaser path agent op).isSome ∧ path ∈ observedDrops agent.state ∧ path ∉ agent.tracker.closed := by
  cases op with
  | expect image => simp [newClose, releaser]
  | source event now =>
    cases event with
    | fileClosed data | fileCleanedUp data =>
      rw [newClose, dropClosed_eq_some, releaser]
      simp [and_assoc]
    | _ => simp [newClose, releaser]

/-- Events that are not of files publish nothing of drops. -/
theorem emitted_noFile (agent : Pipeline) (now : ℤ) {event : SourceEvent}
    (hevent : (TrackerOp.source event now).file = none) :
    dropsIn (emitted agent (handleSource lower config agent now event)) = [] ∧
      closesIn (emitted agent (handleSource lower config agent now event)) = [] := by
  cases event with
  | processStarted data =>
    rw [emitted_started]
    split
    · split <;> exact ⟨rfl, rfl⟩
    · exact ⟨rfl, rfl⟩
  | processStopped data =>
    rw [emitted_stopped]
    split
    · split <;> exact ⟨rfl, rfl⟩
    · exact ⟨rfl, rfl⟩
  | behaviorCall data =>
    rw [emitted_called]
    split <;> exact ⟨rfl, rfl⟩
  | other =>
    rw [handleSource, emitted_nothing rfl]
    exact ⟨rfl, rfl⟩
  | _ => simp [TrackerOp.file] at hevent

/-- What a step publishes of drops, and what it adds to the observed ones. -/
theorem step_newDrop (agent : Pipeline) (op : TrackerOp) :
    dropsIn (emitted agent (trackerStep lower config agent op)) = (newDrop lower config agent op).toList ∧
      observedDrops (trackerStep lower config agent op).state =
        observedDrops agent.state ++ (newDrop lower config agent op).toList := by
  cases op with
  | expect image => simp [trackerStep, emitted_nothing, dropsIn, newDrop]
  | source event now =>
    have hdrops : dropsIn (emitted agent (handleSource lower config agent now event)) =
        (newDrop lower config agent (.source event now)).toList := by
      cases event with
      | fileWritten data =>
        rw [emitted_written, newDrop]
        cases (ScopeTracker.dropObserved lower agent.state data config.filter).1 <;> rfl
      | fileClosed data =>
        rw [emitted_released agent now data (.inl rfl)]
        cases (agent.tracker.dropClosed agent.state data).1 <;> rfl
      | fileCleanedUp data =>
        rw [emitted_released agent now data (.inr rfl)]
        cases (agent.tracker.dropClosed agent.state data).1 <;> rfl
      | _ => exact (emitted_noFile agent now rfl).1
    obtain ⟨events, haccounts⟩ := @handleSource_accounts lower config agent now event
    have hevents : emitted agent (handleSource lower config agent now event) = events := by
      simp [emitted, haccounts.published]
    refine ⟨hdrops, ?_⟩
    rw [trackerStep, haccounts.drops, ← hevents, hdrops]

theorem dropClosed_closed (tracker : ScopeTracker) (state : ScopeState) (data : FileData) :
    (tracker.dropClosed state data).2.closed = tracker.closed ++ (tracker.dropClosed state data).1.toList := by
  unfold ScopeTracker.dropClosed
  repeat' split
  all_goals simp

theorem step_newClose (agent : Pipeline) (op : TrackerOp) :
    closesIn (emitted agent (trackerStep lower config agent op)) = (newClose agent op).toList ∧
      (trackerStep lower config agent op).tracker.closed = agent.tracker.closed ++ (newClose agent op).toList := by
  cases op with
  | expect image =>
    refine ⟨by simp [trackerStep, emitted_nothing, closesIn, newClose], ?_⟩
    simp only [trackerStep, ScopeTracker.expect]
    split <;> simp [newClose]
  | source event now =>
    rw [trackerStep, handleSource_tracker]
    cases event with
    | fileClosed data =>
      refine ⟨?_, dropClosed_closed _ _ _⟩
      rw [emitted_released agent now data (.inl rfl), newClose]
      cases (agent.tracker.dropClosed agent.state data).1 <;> rfl
    | fileCleanedUp data =>
      refine ⟨?_, dropClosed_closed _ _ _⟩
      rw [emitted_released agent now data (.inr rfl), newClose]
      cases (agent.tracker.dropClosed agent.state data).1 <;> rfl
    | fileWritten data =>
      refine ⟨?_, by simp [newClose]⟩
      rw [emitted_written]
      cases (ScopeTracker.dropObserved lower agent.state data config.filter).1 <;> rfl
    | _ => exact ⟨(emitted_noFile agent now rfl).2, by simp [newClose]⟩

/-! ## Runs -/

theorem emitted_run_concat (agent : Pipeline) (ops : List TrackerOp) (op : TrackerOp) :
    emitted agent (run (trackerStep lower config) agent (ops ++ [op])) =
      emitted agent (run (trackerStep lower config) agent ops) ++
        emitted (run (trackerStep lower config) agent ops)
          (trackerStep lower config (run (trackerStep lower config) agent ops) op) := by
  have hgrows : ∃ events, (run (trackerStep lower config) agent ops).published = agent.published ++ events := by
    refine run_invariant (I := fun s : Pipeline => ∃ events, s.published = agent.published ++ events) ?_ ⟨[], by simp⟩ ops
    rintro s op ⟨events, hevents⟩
    exact ⟨_, by rw [published_step, hevents, List.append_assoc]⟩
  obtain ⟨events, hevents⟩ := hgrows
  rw [run_append, run_cons, run_nil]
  conv_lhs => rw [emitted, published_step, hevents]
  simp [emitted, hevents]

/-- The session holds the drops published and the tracker the closes, each path once; they are the ones
written, and the ones closed behind that. -/
structure HoldsDrops (lower : String → String) (config : Config) (agent : Pipeline) (ops : List TrackerOp)
    (s : Pipeline) : Prop where
  drops : dropsIn (emitted agent s) = observedDrops s.state
  closes : closesIn (emitted agent s) = s.tracker.closed
  dropsOnce : (observedDrops s.state).Nodup
  closesOnce : s.tracker.closed.Nodup
  observed : ∀ path, path ∈ observedDrops s.state ↔ Observed lower config agent path ops
  released : ∀ path, path ∈ s.tracker.closed ↔ Released lower config agent path ops

theorem nodup_append_toList {xs : List String} {x : Option String} (hxs : xs.Nodup)
    (hx : ∀ path, x = some path → path ∉ xs) : (xs ++ x.toList).Nodup := by
  cases x with
  | none => simpa using hxs
  | some path =>
    rw [Option.toList_some, List.nodup_append]
    refine ⟨hxs, by simp, fun other hother _ hpath => ?_⟩
    cases List.mem_singleton.mp hpath
    rintro rfl
    exact hx other rfl hother

theorem run_holdsDrops (agent : Pipeline) (hdrops : observedDrops agent.state = [])
    (hclosed : agent.tracker.closed = []) (ops : List TrackerOp) :
    HoldsDrops lower config agent ops (run (trackerStep lower config) agent ops) := by
  induction ops using List.reverseRecOn with
  | nil =>
    refine ⟨?_, ?_, ?_, ?_, fun path => ?_, fun path => ?_⟩
    · simp [hdrops, emitted, dropsIn]
    · simp [hclosed, emitted, closesIn]
    · simp [hdrops]
    · simp [hclosed]
    · simp [hdrops, Observed, not_occurs_nil]
    · simp [hclosed, Released, not_occurs_nil]
  | append_singleton ops op ih =>
    have hemitted := @emitted_run_concat lower config agent ops op
    obtain ⟨hdrop, hobserved⟩ :=
      @step_newDrop lower config (run (trackerStep lower config) agent ops) op
    obtain ⟨hclose, hreleased⟩ :=
      @step_newClose lower config (run (trackerStep lower config) agent ops) op
    have hnewDrop := @newDrop_iff lower config (run (trackerStep lower config) agent ops) op
    have hnewClose := newClose_iff (run (trackerStep lower config) agent ops) op
    have hrun : run (trackerStep lower config) agent (ops ++ [op]) =
        trackerStep lower config (run (trackerStep lower config) agent ops) op := by
      rw [run_append, run_cons, run_nil]
    refine ⟨?_, ?_, ?_, ?_, fun path => ?_, fun path => ?_⟩
    · rw [hemitted, hrun, hobserved, dropsIn, List.filterMap_append, ← dropsIn, ← dropsIn, ih.drops, hdrop]
    · rw [hemitted, hrun, hreleased, closesIn, List.filterMap_append, ← closesIn, ← closesIn, ih.closes, hclose]
    · rw [hrun, hobserved]
      exact nodup_append_toList ih.dropsOnce fun path hpath => ((hnewDrop path).mp hpath).2
    · rw [hrun, hreleased]
      exact nodup_append_toList ih.closesOnce fun path hpath => ((hnewClose path).mp hpath).2.2
    · have hconcat : Observed lower config agent path (ops ++ [op]) ↔ _ := occurs_concat
      rw [hrun, hobserved, hconcat, ← Observed, ← ih.observed, List.mem_append, Option.mem_toList, hnewDrop]
      tauto
    · have hconcat : Released lower config agent path (ops ++ [op]) ↔ _ := occurs_concat
      rw [hrun, hreleased, hconcat, ← Released, ← ih.released, ← ih.observed, List.mem_append, Option.mem_toList,
        hnewClose]
      tauto

/-- A write or close by a pid that is not live changes nothing. -/
theorem foreign_step {agent : Pipeline} {op : TrackerOp} {data : FileData} (hfile : op.file = some data)
    (hforeign : ScopeTracker.isScoped agent.state data.pid = false) :
    trackerStep lower config agent op = agent := by
  cases op with
  | expect image => simp [TrackerOp.file] at hfile
  | source event now =>
    cases event with
    | fileWritten other =>
      cases Option.some.inj hfile
      simp [trackerStep, handleSource, ScopeTracker.dropObserved, hforeign]
    | fileClosed other | fileCleanedUp other =>
      cases Option.some.inj hfile
      have hnothing : agent.tracker.dropClosed agent.state data = (none, agent.tracker) := by
        unfold ScopeTracker.dropClosed
        cases data.fileName <;> simp [hforeign]
      simp [trackerStep, handleSource, hnothing]
    | _ => simp [TrackerOp.file] at hfile

theorem mem_dropsIn {events : List AgentBusEvent} {path : String} {pid : Option UInt32}
    (h : .dropObserved path pid ∈ events) : path ∈ dropsIn events :=
  List.mem_filterMap.mpr ⟨_, h, rfl⟩

theorem mem_closesIn {events : List AgentBusEvent} {path : String} :
    path ∈ closesIn events ↔ .dropClosed path ∈ events := by
  rw [closesIn, List.mem_filterMap]
  constructor
  · rintro ⟨event, hevent, hpath⟩
    cases event <;> simp_all
  · exact fun h => ⟨_, h, rfl⟩

theorem dropObserved_mem (agent : Pipeline) (op : TrackerOp) (path : String) (pid : Option UInt32) :
    .dropObserved path pid ∈ emitted agent (trackerStep lower config agent op) ↔
      (pid.isSome ∧ writer lower config path agent op = pid) ∧ path ∉ observedDrops agent.state := by
  by_cases hwrite : ∃ data now, op = .source (.fileWritten data) now
  · obtain ⟨data, now, rfl⟩ := hwrite
    have hobserves := @dropObserved_eq_some lower agent.state data config.filter path
    rw [trackerStep, emitted_written, List.mem_map]
    simp only [Option.mem_toList, AgentBusEvent.dropObserved.injEq]
    constructor
    · rintro ⟨_, hsome, rfl, rfl⟩
      obtain ⟨hname, hscoped, hcovers, hnew⟩ := hobserves.mp hsome
      exact ⟨⟨rfl, by simp [writer, hname, hscoped, hcovers]⟩, hnew⟩
    · rintro ⟨⟨hpid, hwriter⟩, hnew⟩
      rw [writer] at hwriter
      split at hwriter
      · rename_i hcounts
        refine ⟨path, hobserves.mpr ?_, rfl, hwriter⟩
        simpa [and_assoc, hnew] using hcounts
      · simp [← hwriter] at hpid
  · -- no other event publishes a drop
    have hnone : newDrop lower config agent op = none ∧ writer lower config path agent op = none := by
      cases op with
      | expect image => exact ⟨rfl, rfl⟩
      | source event now => cases event <;> simp_all [newDrop, writer]
    constructor
    · intro hmem
      have hdrop := mem_dropsIn hmem
      simp [(@step_newDrop lower config agent op).1, hnone.1] at hdrop
    · rintro ⟨⟨hpid, hwriter⟩, _⟩
      simp [← hwriter, hnone.2] at hpid

end

/-- What comes of a step, by the steps before it. -/
structure OneShot (lower : String → String) (config : Config) (agent : Pipeline) (before : List TrackerOp)
    (op : TrackerOp) (s : Pipeline) : Prop where
  observes : ∀ path pid, .dropObserved path pid ∈ emitted s (trackerStep lower config s op) ↔
    (pid.isSome ∧ writer lower config path s op = pid) ∧ ¬ Observed lower config agent path before
  closes : ∀ path, .dropClosed path ∈ emitted s (trackerStep lower config s op) ↔
    (releaser path s op).isSome ∧ Observed lower config agent path before ∧
      ¬ Released lower config agent path before
  observesOnce : (dropsIn (emitted agent (trackerStep lower config s op))).Nodup
  closesOnce : (closesIn (emitted agent (trackerStep lower config s op))).Nodup
  foreign : ∀ data ∈ op.file, ScopeTracker.isScoped s.state data.pid = false → ∀ after,
    run (trackerStep lower config) agent (before ++ op :: after) =
      run (trackerStep lower config) agent (before ++ after)

/-- Over any events of a fresh session: a drop is published for exactly the first write that counts, its close
for exactly the first close that counts behind it, each path at most once, and the files of other
pids change nothing. -/
theorem drops_one_shot (lower : String → String) (config : Config) (agent : Pipeline)
    (hdrops : observedDrops agent.state = []) (hclosed : agent.tracker.closed = []) (before : List TrackerOp)
    (op : TrackerOp) :
    OneShot lower config agent before op (run (trackerStep lower config) agent before) := by
  have hholds := @run_holdsDrops lower config agent hdrops hclosed before
  have hnext := @run_holdsDrops lower config agent hdrops hclosed (before ++ [op])
  rw [run_append, run_cons, run_nil] at hnext
  refine ⟨fun path pid => ?_, fun path => ?_, hnext.drops ▸ hnext.dropsOnce, hnext.closes ▸ hnext.closesOnce,
    fun data hdata hforeign after => ?_⟩
  · rw [dropObserved_mem, hholds.observed]
  · rw [← mem_closesIn, (@step_newClose lower config _ op).1, Option.mem_toList, newClose_iff, hholds.observed,
      hholds.released]
  · rw [run_append, run_append, run_cons, foreign_step hdata hforeign]

/-- The target writes a file, and another process closes it. -/
theorem foreignClose_oneShot :
    OneShot id ⟨"explorer.exe", "evil.exe", true, ⟨[.all]⟩, ⟨"actor.exe", []⟩⟩
      (boot id ⟨"explorer.exe", "evil.exe", true, ⟨[.all]⟩, ⟨"actor.exe", []⟩⟩
        (openSessionIfNeeded ⟨[60], 0, 0, true, true⟩ 0 ⟨1, []⟩) 16)
      [.source (.processStarted ⟨7, none, "evil.exe", none, none⟩) 1, .source (.fileWritten ⟨7, some "a.txt"⟩) 2]
      (.source (.fileClosed ⟨9, some "a.txt"⟩) 3)
      (run (trackerStep id ⟨"explorer.exe", "evil.exe", true, ⟨[.all]⟩, ⟨"actor.exe", []⟩⟩)
        (boot id ⟨"explorer.exe", "evil.exe", true, ⟨[.all]⟩, ⟨"actor.exe", []⟩⟩
          (openSessionIfNeeded ⟨[60], 0, 0, true, true⟩ 0 ⟨1, []⟩) 16)
        [.source (.processStarted ⟨7, none, "evil.exe", none, none⟩) 1,
         .source (.fileWritten ⟨7, some "a.txt"⟩) 2]) :=
  drops_one_shot id _ _ rfl rfl _ _

end SecOutfall.Agent
