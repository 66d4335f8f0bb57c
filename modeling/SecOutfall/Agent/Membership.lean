import Mathlib.Data.Set.Insert
import SecOutfall.Agent.TrackerRuns
import SecOutfall.Foundations.Runs

/-! The scope tracker against live sets of pids, over runs of source events and added expectations
within one session. -/
namespace SecOutfall.Agent
open Runs
set_option autoImplicit false

/-! ## Live sets

What membership is for: who is expected, who ever joined, who is live. -/

structure LiveSets (ν π : Type*) where
  expected : Set ν
  ever : Set π
  live : Set π

namespace LiveSets

variable {ν π : Type*}

/-- A start joins by its name, or through a live parent. -/
def Admits (sets : LiveSets ν π) (name : ν) (parent : Option π) : Prop :=
  name ∈ sets.expected ∨ ∃ pid ∈ parent, pid ∈ sets.live

open Classical in
noncomputable def start (sets : LiveSets ν π) (pid : π) (name : ν) (parent : Option π) : LiveSets ν π :=
  if sets.Admits name parent then
    { sets with ever := insert pid sets.ever, live := insert pid sets.live }
  else sets

def stop (sets : LiveSets ν π) (pid : π) : LiveSets ν π := { sets with live := sets.live \ {pid} }

def expect (sets : LiveSets ν π) (name : ν) : LiveSets ν π :=
  { sets with expected := insert name sets.expected }

/-- Someone joined, and nobody is left. -/
def Dead (sets : LiveSets ν π) : Prop := sets.ever.Nonempty ∧ sets.live = ∅

end LiveSets

section
variable (lower : String → String)

/-- A step of the tracker on live sets; `expect` ignores a name that is empty when normalised. -/
noncomputable def liveStep (sets : LiveSets String UInt32) : TrackerOp → LiveSets String UInt32
  | .source (.processStarted data) _ => sets.start data.pid (lower data.name) data.parentPid
  | .source (.processStopped data) _ => sets.stop data.pid
  | .source _ _ => sets
  | .expect image => if (lower image).toList.isEmpty then sets else sets.expect (lower image)

end

/-! ## Records of a session -/

section
variable {processes : List ScopedProcessRecord} {pid : UInt32}

theorem nodup_pushed (h : (processes.map (·.pid)).Nodup) {process : ScopedProcessRecord}
    (hpid : process.pid = pid) :
    (((processes.filter fun process => process.pid != pid) ++ [process]).map (·.pid)).Nodup := by
  rw [List.map_append, List.nodup_append]
  refine ⟨h.sublist ((List.filter_sublist).map _), by simp, ?_⟩
  rintro q hq _ hlast rfl
  obtain ⟨other, hother, rfl⟩ := List.mem_map.mp hq
  have hne := (List.mem_filter.mp hother).2
  simp_all

/-- With one record a pid, a stop stamps exactly the live record of its pid. -/
theorem stampExit_eq_map (h : (processes.map (·.pid)).Nodup) (nowMs : ℤ) :
    ScopeTracker.stampExit pid nowMs processes =
      processes.map fun process =>
        if process.pid == pid && process.endedAtMs.isNone then { process with endedAtMs := some nowMs }
        else process := by
  induction processes with
  | nil => rfl
  | cons process rest ih =>
    obtain ⟨hfirst, hrest⟩ := List.nodup_cons.mp h
    rw [ScopeTracker.stampExit, List.map_cons]
    split
    · rename_i hstamp
      have hpid : process.pid = pid := eq_of_beq (Bool.and_eq_true_iff.mp hstamp).1
      -- no other record has this pid
      have hothers : rest.map (fun process =>
          if process.pid == pid && process.endedAtMs.isNone then { process with endedAtMs := some nowMs }
          else process) = rest := by
        refine (List.map_congr_left fun other hother => ?_).trans (List.map_id rest)
        have hne : other.pid ≠ pid := by
          intro hsame
          exact hfirst (List.mem_map.mpr ⟨other, hother, hsame.trans hpid.symm⟩)
        simp [hne]
      rw [hothers]
    · rw [ih hrest]

end

/-! ## The tracker refines the live sets -/

/-- The session holds one record a pid, and its records are those of the live sets. -/
structure Refines (agent : Pipeline) (sets : LiveSets String UInt32) : Prop where
  opened : agent.state.currentSession.isSome
  unique : ((processesOf agent.state).map (·.pid)).Nodup
  expected : ∀ name, name ∈ agent.tracker.expected ↔ name ∈ sets.expected
  ever : ∀ pid, pid ∈ (processesOf agent.state).map (·.pid) ↔ pid ∈ sets.ever
  live : ∀ pid, ScopeTracker.isScoped agent.state pid = true ↔ pid ∈ sets.live

section
variable {lower : String → String} {config : Config} {agent : Pipeline} {sets : LiveSets String UInt32}

theorem processEntered_fst (tracker : ScopeTracker) (state : ScopeState) (data : ProcessStartedData) (now : ℤ) :
    (tracker.processEntered lower state data now).1 =
      ((data.parentPid.any (ScopeTracker.isScoped state) || tracker.expected.contains (lower data.name)) &&
        state.currentSession.isSome) := by
  unfold ScopeTracker.processEntered
  dsimp only
  generalize data.parentPid.any (ScopeTracker.isScoped state) = inherited
  generalize tracker.expected.contains (lower data.name) = expected
  cases inherited <;> cases expected <;> cases state.currentSession <;> rfl

theorem Refines.entered_iff (h : Refines agent sets) (data : ProcessStartedData) (now : ℤ) :
    (agent.tracker.processEntered lower agent.state data now).1 = true ↔
      sets.Admits (lower data.name) data.parentPid := by
  have hinherited : data.parentPid.any (ScopeTracker.isScoped agent.state) = true ↔
      ∃ pid ∈ data.parentPid, pid ∈ sets.live := by
    simp only [Option.any_eq_true, h.live]
    rfl
  have hexpected : agent.tracker.expected.contains (lower data.name) = true ↔ lower data.name ∈ sets.expected := by
    rw [List.contains_iff_mem, h.expected]
  rw [processEntered_fst, h.opened, Bool.and_true, Bool.or_eq_true, hinherited, hexpected]
  exact or_comm

theorem Refines.started (h : Refines agent sets) (data : ProcessStartedData) (now : ℤ) :
    Refines (handleSource lower config agent now (.processStarted data))
      (sets.start data.pid (lower data.name) data.parentPid) := by
  have hentered := @Refines.entered_iff lower agent sets h data now
  have hstate := @handleSource_state lower config agent now (.processStarted data)
  have htracker := @handleSource_tracker lower config agent now (.processStarted data)
  dsimp only at hstate htracker
  obtain hcase | ⟨current, process, hcurrent, hpid, hended, hcase⟩ :=
    @processEntered_cases lower agent.tracker agent.state data now
  · rw [hcase] at hentered hstate
    have hnot : ¬ sets.Admits (lower data.name) data.parentPid := fun hadmits => by simpa using hentered.mpr hadmits
    rw [LiveSets.start, if_neg hnot]
    exact ⟨hstate ▸ h.opened, hstate ▸ h.unique, htracker ▸ h.expected, hstate ▸ h.ever, hstate ▸ h.live⟩
  · rw [hcase] at hentered hstate
    rw [LiveSets.start, if_pos (hentered.mp rfl)]
    have hprocesses : processesOf (handleSource lower config agent now (.processStarted data)).state =
        ((processesOf agent.state).filter fun process => process.pid != data.pid) ++ [process] := by
      rw [hstate, processesOf_updateCurrent _ hcurrent]
      simp [processesOf, hcurrent]
    refine ⟨by simp [hstate, hcurrent], ?_, htracker ▸ h.expected, fun pid => ?_, fun pid => ?_⟩
    · rw [hprocesses]
      exact nodup_pushed h.unique hpid
    · rw [hprocesses, Set.mem_insert_iff, ← h.ever]
      by_cases hsame : pid = data.pid
      · simp [hsame, hpid]
      · simp only [List.map_append, List.mem_append, List.mem_map, List.mem_filter, bne_iff_ne, hsame, false_or]
        grind
    · rw [isScoped_iff, hprocesses, Set.mem_insert_iff, ← h.live, isScoped_iff]
      by_cases hsame : pid = data.pid
      · simp [hsame, hpid, hended]
      · grind

theorem processExited_fst (state : ScopeState) (data : ProcessStoppedData) (now : ℤ) :
    (ScopeTracker.processExited state data now).1 = ScopeTracker.isScoped state data.pid := by
  unfold ScopeTracker.processExited
  cases ScopeTracker.isScoped state data.pid <;> rfl

/-- A stop stamps the live record of its pid and leaves the others. -/
theorem processExited_stamps {state : ScopeState} (hunique : ((processesOf state).map (·.pid)).Nodup)
    (data : ProcessStoppedData) (now : ℤ) :
    processesOf (ScopeTracker.processExited state data now).2 =
      (processesOf state).map fun process =>
        if process.pid == data.pid && process.endedAtMs.isNone then { process with endedAtMs := some now }
        else process := by
  unfold ScopeTracker.processExited
  split
  · cases hcurrent : state.currentSession with
    | none => simp [processesOf, hcurrent]
    | some current =>
      have hprocesses : processesOf state = current.scopedProcesses := by simp [processesOf, hcurrent]
      rw [processesOf_updateCurrent _ hcurrent, hprocesses]
      exact stampExit_eq_map (hprocesses ▸ hunique) now
  · rename_i hscoped
    rw [isScoped_iff] at hscoped
    refine ((List.map_congr_left fun process hprocess => ?_).trans (List.map_id _)).symm
    have hnot : ¬ (process.pid = data.pid ∧ process.endedAtMs = none) := fun h => hscoped ⟨process, hprocess, h⟩
    rw [if_neg (by simpa using hnot)]
    rfl

theorem Refines.stopped (h : Refines agent sets) (data : ProcessStoppedData) (now : ℤ) :
    Refines (handleSource lower config agent now (.processStopped data)) (sets.stop data.pid) := by
  have hstate := @handleSource_state lower config agent now (.processStopped data)
  have htracker := @handleSource_tracker lower config agent now (.processStopped data)
  dsimp only at hstate htracker
  have hprocesses := processExited_stamps h.unique data now
  rw [← hstate] at hprocesses
  have hpids : (processesOf (handleSource lower config agent now (.processStopped data)).state).map (·.pid) =
      (processesOf agent.state).map (·.pid) := by
    rw [hprocesses, List.map_map]
    refine List.map_congr_left fun process _ => ?_
    dsimp only [Function.comp]
    split <;> rfl
  refine ⟨?_, hpids ▸ h.unique, htracker ▸ h.expected, fun pid => hpids ▸ h.ever pid, fun pid => ?_⟩
  · rw [hstate]
    obtain hcase | ⟨current, hcurrent, hcase⟩ := processExited_cases agent.state data now
    · rw [hcase]
      exact h.opened
    · simp [hcase, hcurrent]
  · rw [isScoped_iff, hprocesses, LiveSets.stop, Set.mem_sdiff, ← h.live, isScoped_iff, Set.mem_singleton_iff]
    constructor
    · rintro ⟨_, hmem, hpid, hended⟩
      obtain ⟨process, hprocess, rfl⟩ := List.mem_map.mp hmem
      grind
    · rintro ⟨⟨process, hprocess, hpid, hended⟩, hother⟩
      refine ⟨process, List.mem_map.mpr ⟨process, hprocess, ?_⟩, hpid, hended⟩
      simp [hpid, hother]

theorem Refines.expect (h : Refines agent sets) (image : String) :
    Refines { agent with tracker := agent.tracker.expect lower image } (liveStep lower sets (.expect image)) := by
  unfold liveStep ScopeTracker.expect
  by_cases hempty : (lower image).toList.isEmpty
  · simp only [hempty, Bool.true_or, if_true]
    exact ⟨h.opened, h.unique, h.expected, h.ever, h.live⟩
  · simp only [hempty, Bool.false_or, Bool.false_eq_true, if_false]
    refine ⟨h.opened, h.unique, fun name => ?_, h.ever, h.live⟩
    rw [LiveSets.expect, Set.mem_insert_iff, ← h.expected]
    split
    · rename_i hknown
      rw [List.contains_iff_mem] at hknown
      exact ⟨.inr, fun hname => hname.elim (fun hname => hname ▸ hknown) id⟩
    · simp [or_comm]

/-- What the tracker does besides does not touch the scope. -/
theorem Refines.frame {agent' : Pipeline} (h : Refines agent sets)
    (hprocesses : processesOf agent'.state = processesOf agent.state)
    (hopened : agent'.state.currentSession.isSome) (hexpected : agent'.tracker.expected = agent.tracker.expected) :
    Refines agent' sets := by
  have hlive (pid : UInt32) : ScopeTracker.isScoped agent'.state pid = true ↔ ScopeTracker.isScoped agent.state pid = true := by
    rw [isScoped_iff, isScoped_iff, hprocesses]
  exact ⟨hopened, hprocesses ▸ h.unique, hexpected ▸ h.expected, hprocesses ▸ h.ever,
    fun pid => (hlive pid).trans (h.live pid)⟩

theorem Refines.step (h : Refines agent sets) (op : TrackerOp) :
    Refines (trackerStep lower config agent op) (liveStep lower sets op) := by
  cases op with
  | expect image => exact h.expect image
  | source event now =>
    have hstate := @handleSource_state lower config agent now event
    have htracker := @handleSource_tracker lower config agent now event
    cases event with
    | processStarted data => exact @Refines.started lower config agent sets h data now
    | processStopped data => exact @Refines.stopped lower config agent sets h data now
    | fileWritten data =>
      have hframe : processesOf (ScopeTracker.dropObserved lower agent.state data config.filter).2 =
          processesOf agent.state ∧
          (ScopeTracker.dropObserved lower agent.state data config.filter).2.currentSession.isSome := by
        obtain hcase | ⟨current, path, hcurrent, hcase⟩ := @dropObserved_cases lower agent.state data config.filter
        · rw [hcase]
          exact ⟨rfl, h.opened⟩
        · rw [hcase, processesOf_updateCurrent _ hcurrent]
          simp [processesOf, hcurrent]
      exact h.frame (hstate ▸ hframe.1) (hstate ▸ hframe.2) (htracker ▸ rfl)
    | fileClosed data | fileCleanedUp data =>
      have hexpected : (agent.tracker.dropClosed agent.state data).2.expected = agent.tracker.expected := by
        unfold ScopeTracker.dropClosed
        repeat' split
        all_goals rfl
      exact h.frame (congrArg processesOf hstate) (hstate ▸ h.opened) (htracker ▸ hexpected)
    | behaviorCall _ | other => exact h.frame (congrArg processesOf hstate) (hstate ▸ h.opened) (htracker ▸ rfl)

theorem Refines.dead_iff (h : Refines agent sets) :
    ScopeTracker.scopeDead agent.state = true ↔ sets.Dead := by
  have hever : processesOf agent.state ≠ [] ↔ sets.ever.Nonempty := by
    constructor
    · intro hsome
      obtain ⟨process, hprocess⟩ := List.exists_mem_of_ne_nil _ hsome
      exact ⟨process.pid, (h.ever _).mp (List.mem_map_of_mem hprocess)⟩
    · rintro ⟨pid, hpid⟩
      obtain ⟨process, hprocess, _⟩ := List.mem_map.mp ((h.ever pid).mpr hpid)
      exact List.ne_nil_of_mem hprocess
  have hlive : (∀ process ∈ processesOf agent.state, process.endedAtMs ≠ none) ↔ sets.live = ∅ := by
    simp only [Set.eq_empty_iff_forall_notMem, ← h.live, isScoped_iff]
    constructor
    · rintro hended pid ⟨process, hprocess, _, hnone⟩
      exact hended process hprocess hnone
    · intro hnobody process hprocess hnone
      exact hnobody process.pid ⟨process, hprocess, rfl, hnone⟩
  rw [scopeDead_iff, hever, hlive, LiveSets.Dead]

/-- What the tracker answers to any next event, by the live sets. -/
structure Agrees (lower : String → String) (config : Config) (agent : Pipeline)
    (sets : LiveSets String UInt32) : Prop where
  admits : ∀ data now, (agent.tracker.processEntered lower agent.state data now).1 = true ↔
    sets.Admits (lower data.name) data.parentPid
  stops : ∀ data now, (ScopeTracker.processExited agent.state data now).1 = true ↔ data.pid ∈ sets.live
  changes : ∀ data now, (ScopeTracker.processExited agent.state data now).2 ≠ agent.state ↔ data.pid ∈ sets.live
  stamps : ∀ data now, processesOf (ScopeTracker.processExited agent.state data now).2 =
    (processesOf agent.state).map fun process =>
      if process.pid == data.pid && process.endedAtMs.isNone then { process with endedAtMs := some now }
      else process
  dies : ∀ op, .scopeDied ∈ emitted agent (trackerStep lower config agent op) ↔
    ∃ data now, op = .source (.processStopped data) now ∧ data.pid ∈ sets.live ∧ (sets.stop data.pid).Dead

theorem Refines.dies_iff (h : Refines agent sets) (op : TrackerOp) :
    .scopeDied ∈ emitted agent (trackerStep lower config agent op) ↔
      ∃ data now, op = .source (.processStopped data) now ∧ data.pid ∈ sets.live ∧
        (sets.stop data.pid).Dead := by
  cases op with
  | expect image => simp [trackerStep, emitted_nothing]
  | source event now =>
    rw [trackerStep]
    cases event with
    | processStopped data =>
      have hstate := @handleSource_state lower config agent now (.processStopped data)
      have hdead := (@Refines.stopped lower config agent sets h data now).dead_iff
      rw [hstate] at hdead
      rw [emitted_stopped, processExited_fst]
      constructor
      · intro hmem
        split at hmem
        · rename_i hscoped
          refine ⟨data, now, rfl, (h.live _).mp hscoped, hdead.mp ?_⟩
          split at hmem
          · assumption
          · simp at hmem
        · simp at hmem
      · rintro ⟨_, _, heq, hlive, hsets⟩
        cases heq
        simp [(h.live _).mpr hlive, hdead.mpr hsets]
    | processStarted data =>
      rw [emitted_started]
      split
      · split <;> simp
      · simp
    | fileWritten data => simp [emitted_written]
    | behaviorCall data =>
      rw [emitted_called]
      split <;> simp
    | fileClosed data => simp [emitted_released agent now data (.inl rfl)]
    | fileCleanedUp data => simp [emitted_released agent now data (.inr rfl)]
    | other => simp [handleSource, emitted_nothing]

theorem Refines.agrees (h : Refines agent sets) : Agrees lower config agent sets := by
  refine ⟨h.entered_iff, fun data now => ?_, fun data now => ?_, processExited_stamps h.unique, h.dies_iff⟩
  · rw [processExited_fst, h.live]
  · rw [← h.live]
    constructor
    · intro hchanged
      by_contra hnot
      simp [ScopeTracker.processExited, hnot] at hchanged
    · intro hscoped hsame
      -- the pid would be live behind its stop
      have hlive := (@Refines.stopped lower config agent sets h data now).live data.pid
      rw [@handleSource_state lower config agent now (.processStopped data)] at hlive
      dsimp only at hlive
      rw [hsame] at hlive
      simpa [LiveSets.stop] using hlive.mp hscoped

theorem Refines.fresh (hfresh : agent.state.currentSession.map (·.scopedProcesses) = some []) :
    Refines agent ⟨{name | name ∈ agent.tracker.expected}, ∅, ∅⟩ := by
  obtain ⟨current, hcurrent, hnone⟩ := Option.map_eq_some_iff.mp hfresh
  have hprocesses : processesOf agent.state = [] := by simp [processesOf, hcurrent, hnone]
  refine ⟨by simp [hcurrent], by simp [hprocesses], fun name => Iff.rfl, by simp [hprocesses], fun pid => ?_⟩
  rw [isScoped_iff, hprocesses]
  simp

end

/-- From a fresh session, whatever starts, stops and expectations come: one record a pid, membership as in
the live sets, and `ScopeDied` on exactly the stops that leave nobody. -/
theorem membership_refines (lower : String → String) (config : Config) (agent : Pipeline)
    (hfresh : agent.state.currentSession.map (·.scopedProcesses) = some []) (ops : List TrackerOp) :
    Refines (run (trackerStep lower config) agent ops)
        (run (liveStep lower) ⟨{name | name ∈ agent.tracker.expected}, ∅, ∅⟩ ops) ∧
      Agrees lower config (run (trackerStep lower config) agent ops)
        (run (liveStep lower) ⟨{name | name ∈ agent.tracker.expected}, ∅, ∅⟩ ops) := by
  suffices hrun : ∀ (agent : Pipeline) (sets : LiveSets String UInt32), Refines agent sets →
      Refines (run (trackerStep lower config) agent ops) (run (liveStep lower) sets ops) from
    ⟨hrun agent _ (.fresh hfresh), (hrun agent _ (.fresh hfresh)).agrees⟩
  induction ops with
  | nil => exact fun _ _ h => h
  | cons op ops ih => exact fun agent sets h => ih _ _ (h.step op)

/-- A target, its child, and the stops of both. -/
theorem targetAndChild_refine :
    Agrees id ⟨"explorer.exe", "evil.exe", true, ⟨[.all]⟩, ⟨"actor.exe", []⟩⟩
      (run (trackerStep id ⟨"explorer.exe", "evil.exe", true, ⟨[.all]⟩, ⟨"actor.exe", []⟩⟩)
        (boot id ⟨"explorer.exe", "evil.exe", true, ⟨[.all]⟩, ⟨"actor.exe", []⟩⟩
          (openSessionIfNeeded ⟨[60], 0, 0, true, true⟩ 0 ⟨1, []⟩) 16)
        [.source (.processStarted ⟨7, none, "evil.exe", none, none⟩) 1,
         .source (.processStarted ⟨8, some 7, "a.exe", none, none⟩) 2,
         .source (.processStopped ⟨7, "evil.exe"⟩) 3, .source (.processStopped ⟨8, "a.exe"⟩) 4])
      (run (liveStep id) ⟨{name | name ∈ ["evil.exe"]}, ∅, ∅⟩
        [.source (.processStarted ⟨7, none, "evil.exe", none, none⟩) 1,
         .source (.processStarted ⟨8, some 7, "a.exe", none, none⟩) 2,
         .source (.processStopped ⟨7, "evil.exe"⟩) 3, .source (.processStopped ⟨8, "a.exe"⟩) 4]) :=
  (membership_refines id ⟨"explorer.exe", "evil.exe", true, ⟨[.all]⟩, ⟨"actor.exe", []⟩⟩
    (boot id ⟨"explorer.exe", "evil.exe", true, ⟨[.all]⟩, ⟨"actor.exe", []⟩⟩
      (openSessionIfNeeded ⟨[60], 0, 0, true, true⟩ 0 ⟨1, []⟩) 16) rfl _).2

/-! ## Refused starts -/

section
variable (lower : String → String) (config : Config)

def admitted (agent : Pipeline) : TrackerOp → Option UInt32
  | .source (.processStarted data) now =>
    if (agent.tracker.processEntered lower agent.state data now).1 then some data.pid else none
  | _ => none

/-- The pid of a `process.started` that is not admitted. -/
def refused (agent : Pipeline) : TrackerOp → Option UInt32
  | .source (.processStarted data) now =>
    if (agent.tracker.processEntered lower agent.state data now).1 then none else some data.pid
  | _ => none

/-- The pid is no live member: its children do not inherit, and its writes, closes and calls
publish nothing. -/
structure Outside (agent : Pipeline) (pid : UInt32) : Prop where
  dead : ScopeTracker.isScoped agent.state pid = false
  children : ∀ data now, data.parentPid = some pid → lower data.name ∉ agent.tracker.expected →
    (agent.tracker.processEntered lower agent.state data now).1 = false
  files : ∀ data : FileData, data.pid = pid → ∀ event now,
    event = .fileWritten data ∨ event = .fileClosed data ∨ event = .fileCleanedUp data →
    emitted agent (handleSource lower config agent now event) = []
  calls : ∀ data now, data.pid = pid → emitted agent (handleSource lower config agent now (.behaviorCall data)) = []

/-- A start that is refused is not of a live member's pid. -/
def refusedNotLive (agent : Pipeline) (op : TrackerOp) : Bool :=
  (refused lower agent op).all fun pid => !ScopeTracker.isScoped agent.state pid

end

section
variable {lower : String → String} {config : Config}

theorem outside_of_dead {agent : Pipeline} {pid : UInt32} (h : ScopeTracker.isScoped agent.state pid = false) :
    Outside lower config agent pid := by
  refine ⟨h, fun data now hparent hname => ?_, fun data hpid event now hevent => ?_, fun data now hpid => ?_⟩
  · rw [processEntered_fst, hparent, Option.any_some, h, Bool.false_or]
    simp [hname]
  · subst hpid
    obtain rfl | hreleased := hevent
    · simp [emitted_written, ScopeTracker.dropObserved, h]
    · rw [emitted_released agent now data hreleased]
      unfold ScopeTracker.dropClosed
      cases data.fileName <;> simp [h]
  · simp [emitted_called, hpid, h]

theorem mem_of_stampExit {pid : UInt32} {now : ℤ} {processes : List ScopedProcessRecord}
    {process : ScopedProcessRecord} (h : process ∈ ScopeTracker.stampExit pid now processes)
    (hlive : process.endedAtMs = none) : process ∈ processes := by
  induction processes with
  | nil => exact h
  | cons first rest ih =>
    rw [ScopeTracker.stampExit] at h
    split at h
    · obtain rfl | hrest := List.mem_cons.mp h
      · simp at hlive
      · exact List.mem_cons_of_mem _ hrest
    · obtain rfl | hrest := List.mem_cons.mp h
      · exact List.mem_cons_self
      · exact List.mem_cons_of_mem _ (ih hrest)

/-- Only an admitted start makes a pid live. -/
theorem scoped_step {agent : Pipeline} {op : TrackerOp} {pid : UInt32}
    (h : ScopeTracker.isScoped (trackerStep lower config agent op).state pid = true) :
    ScopeTracker.isScoped agent.state pid = true ∨ admitted lower agent op = some pid := by
  cases op with
  | expect image => exact .inl h
  | source event now =>
    rw [trackerStep, handleSource_state] at h
    cases event with
    | processStarted data =>
      dsimp only at h
      obtain hcase | ⟨current, process, hcurrent, hpid, hended, hcase⟩ :=
        @processEntered_cases lower agent.tracker agent.state data now
      · rw [hcase] at h
        exact .inl h
      · rw [hcase, isScoped_iff, processesOf_updateCurrent _ hcurrent] at h
        obtain ⟨other, hother, rfl, hlive⟩ := h
        obtain hold | hnew := List.mem_append.mp hother
        · refine .inl ((isScoped_iff _ _).mpr ⟨other, ?_, rfl, hlive⟩)
          simpa [processesOf, hcurrent] using (List.mem_filter.mp hold).1
        · cases List.mem_singleton.mp hnew
          exact .inr (by simp [admitted, hcase, hpid])
    | processStopped data =>
      dsimp only at h
      obtain hcase | ⟨current, hcurrent, hcase⟩ := processExited_cases agent.state data now
      · rw [hcase] at h
        exact .inl h
      · rw [hcase, isScoped_iff, processesOf_updateCurrent _ hcurrent] at h
        obtain ⟨process, hprocess, hpid, hlive⟩ := h
        refine .inl ((isScoped_iff _ _).mpr ⟨process, ?_, hpid, hlive⟩)
        simpa [processesOf, hcurrent] using mem_of_stampExit hprocess hlive
    | fileWritten data =>
      dsimp only at h
      obtain hcase | ⟨current, path, hcurrent, hcase⟩ := @dropObserved_cases lower agent.state data config.filter
      · rw [hcase] at h
        exact .inl h
      · rw [hcase, isScoped_iff, processesOf_updateCurrent _ hcurrent] at h
        refine .inl ((isScoped_iff _ _).mpr ?_)
        simpa [processesOf, hcurrent] using h
    | _ => exact .inl h

theorem dead_along {agent : Pipeline} {pid : UInt32} {ops : List TrackerOp}
    (h : ScopeTracker.isScoped agent.state pid = false)
    (halong : Along (trackerStep lower config) (fun s op => admitted lower s op ≠ some pid) agent ops) :
    ScopeTracker.isScoped (run (trackerStep lower config) agent ops).state pid = false := by
  refine halong.invariant (I := fun s => ScopeTracker.isScoped s.state pid = false) (fun s op hdead hnot => ?_) h
  by_contra hscoped
  obtain hbefore | hadmitted := scoped_step (Bool.not_eq_false _ ▸ hscoped)
  · exact absurd (hdead.symm.trans hbefore) Bool.false_ne_true
  · exact hnot hadmitted

theorem refused_state {agent : Pipeline} {op : TrackerOp} {pid : UInt32} (h : refused lower agent op = some pid) :
    (trackerStep lower config agent op).state = agent.state := by
  cases op with
  | expect image => rfl
  | source event now =>
    cases event with
    | processStarted data =>
      rw [trackerStep, handleSource_state]
      obtain hcase | ⟨_, _, _, _, _, hcase⟩ := @processEntered_cases lower agent.tracker agent.state data now
      · simp [hcase]
      · simp [refused, hcase] at h
    | _ => simp [refused] at h

end

/-- A pid is outside the scope from every refused start of it to its next admitted one, exactly if it was
not live at any refused start. -/
theorem refused_leaves_iff (lower : String → String) (config : Config) (agent : Pipeline)
    (ops : List TrackerOp) :
    (∀ before op mid after, ops = before ++ op :: (mid ++ after) → ∀ pid,
        refused lower (run (trackerStep lower config) agent before) op = some pid →
        Along (trackerStep lower config) (fun s op => admitted lower s op ≠ some pid)
          (run (trackerStep lower config) agent (before ++ [op])) mid →
        Outside lower config (run (trackerStep lower config) agent (before ++ op :: mid)) pid) ↔
      Along (trackerStep lower config) (fun s op => refusedNotLive lower s op = true) agent ops := by
  rw [along_iff_forall]
  constructor
  · intro h before op after hops
    rw [refusedNotLive, Option.all_eq_true]
    intro pid hrefused
    have hdead := (h before op [] after hops pid hrefused trivial).dead
    rw [run_append, run_cons, run_nil, refused_state hrefused] at hdead
    rw [hdead]
    rfl
  · intro h before op mid after hops pid hrefused halong
    have hnotLive := h before op (mid ++ after) hops
    rw [refusedNotLive, hrefused, Option.all_some, Bool.not_eq_true'] at hnotLive
    refine outside_of_dead ?_
    rw [run_append, run_cons]
    rw [run_append, run_cons, run_nil] at halong
    exact dead_along ((congrArg (ScopeTracker.isScoped · pid) (refused_state hrefused)).trans hnotLive) halong

/-- The stop of the target is lost, and its pid goes to a process that is not admitted: that one is in the
scope. -/
theorem lostStop_staysScoped :
    refused id
        (run (trackerStep id ⟨"explorer.exe", "evil.exe", true, ⟨[.all]⟩, ⟨"actor.exe", []⟩⟩)
          (boot id ⟨"explorer.exe", "evil.exe", true, ⟨[.all]⟩, ⟨"actor.exe", []⟩⟩
            (openSessionIfNeeded ⟨[60], 0, 0, true, true⟩ 0 ⟨1, []⟩) 16)
          [.source (.processStarted ⟨7, none, "evil.exe", none, none⟩) 1])
        (.source (.processStarted ⟨7, some 4, "svchost.exe", none, none⟩) 2) = some 7 ∧
      ¬ Outside id ⟨"explorer.exe", "evil.exe", true, ⟨[.all]⟩, ⟨"actor.exe", []⟩⟩
        (run (trackerStep id ⟨"explorer.exe", "evil.exe", true, ⟨[.all]⟩, ⟨"actor.exe", []⟩⟩)
          (boot id ⟨"explorer.exe", "evil.exe", true, ⟨[.all]⟩, ⟨"actor.exe", []⟩⟩
            (openSessionIfNeeded ⟨[60], 0, 0, true, true⟩ 0 ⟨1, []⟩) 16)
          [.source (.processStarted ⟨7, none, "evil.exe", none, none⟩) 1,
           .source (.processStarted ⟨7, some 4, "svchost.exe", none, none⟩) 2]) 7 := by
  refine ⟨by decide, fun h => ?_⟩
  exact absurd h.dead (by decide)

end SecOutfall.Agent
