import SecOutfall.Agent.Membership
import SecOutfall.Agent.ScoreMeaning

/-! Chain credits against the incarnations of a pid: a run of the scope tracker, and the scoring consumer over
what it published, in order and without lag. -/
namespace SecOutfall.Agent
open Runs
set_option autoImplicit false

/-! ## Credits of an incarnation -/

def incarnationStep (pid : UInt32) (calls : List UInt32) : AgentBusEvent → List UInt32
  | .processEnteredScope entered _ => if entered = pid then [] else calls
  | .behaviorObserved caller api => if caller = pid then calls ++ [api] else calls
  | _ => calls

/-- The apis a pid called since it last entered the scope. -/
def incarnationCalls (pid : UInt32) (history : List AgentBusEvent) : List UInt32 :=
  history.foldl (incarnationStep pid) []

/-- The detector of the consumer behind the events. -/
def detectorAfter (weights : ScoreWeights) (history : List AgentBusEvent) : ChainDetector :=
  (history.foldl (Scoring.recv weights) .initial).detector

/-- What a call is credited with rests on calls since the last entry, and a chain these complete is credited. -/
structure OwnCredits (weights : ScoreWeights) (history : List AgentBusEvent) (pid api : UInt32) : Prop where
  counted : ∀ chain ∈ ((detectorAfter weights history).observe pid api).1.chains, ∀ member ∈ chain.members,
    (countOf (((detectorAfter weights history).observe pid api).2.slot pid).counts member.1).toNat =
      (incarnationCalls pid (history ++ [.behaviorObserved pid api])).count member.1
  complete : ∀ chain ∈ ((detectorAfter weights history).observe pid api).1.chains,
    Complete chain (incarnationCalls pid (history ++ [.behaviorObserved pid api]))
  runKey : ((detectorAfter weights history).observe pid api).1.runKeySet = true →
    api = BehaviorApi.ntSetValueKeyRunKey
  again : ∀ chain, Complete chain (incarnationCalls pid (history ++ [.behaviorObserved pid api])) →
    ¬ Complete chain (incarnationCalls pid history) →
    chain ∈ ((detectorAfter weights history).observe pid api).1.chains

/-- Every call published so far has the credits of its incarnation. -/
def CreditsOwn (weights : ScoreWeights) (log : List AgentBusEvent) : Prop :=
  ∀ history pid api rest, log = history ++ .behaviorObserved pid api :: rest → OwnCredits weights history pid api

/-- A start is admitted only of a pid without calls since its last exit, and a call finds room in the
detector. -/
def incarnationsApart (lower : String → String) (s : Pipeline) (op : TrackerOp) : Bool :=
  match op with
  | .source (.processStarted data) _ =>
    (admitted lower s op).isNone || (callsSince data.pid s.published).isEmpty
  | .source (.behaviorCall data) _ =>
    !(isScoringRelevant data.api && ScopeTracker.isScoped s.state data.pid) ||
      ((trackedPids (s.published ++ [.behaviorObserved data.pid data.api])).length ≤ maxTrackedPids &&
        (callsSince data.pid s.published).count data.api + 1 < 4294967296)
  | _ => true

/-! ## The invariant -/

/-- The detector follows the log, and what it knows of a live pid is of its incarnation. -/
structure LogApart (weights : ScoreWeights) (live : UInt32 → Prop) (log : List AgentBusEvent) : Prop where
  detector : (detectorAfter weights log).Follows log
  own : ∀ pid, live pid → callsSince pid log = incarnationCalls pid log
  credits : CreditsOwn weights log

/-- The same of the tracker's own log, with one record a pid. -/
structure Apart (weights : ScoreWeights) (s : Pipeline) : Prop where
  scope : ∃ sets, Refines s sets
  log : LogApart weights (ScopeTracker.isScoped s.state · = true) s.published

section
variable {weights : ScoreWeights} {lower : String → String} {config : Config}

theorem incarnationCalls_concat (pid : UInt32) (history : List AgentBusEvent) (event : AgentBusEvent) :
    incarnationCalls pid (history ++ [event]) = incarnationStep pid (incarnationCalls pid history) event := by
  simp [incarnationCalls]

theorem detectorAfter_concat (history : List AgentBusEvent) (event : AgentBusEvent) :
    detectorAfter weights (history ++ [event]) =
      (scoringCandidate weights (detectorAfter weights history) event).2 := by
  rw [detectorAfter, List.foldl_append, List.foldl_cons, List.foldl_nil, Scoring.recv]
  generalize hresult : scoringCandidate weights (history.foldl (Scoring.recv weights) .initial).detector event = result
  rw [detectorAfter, hresult]
  obtain ⟨candidate, detector⟩ := result
  cases candidate <;> rfl

/-- A call out of a detector that follows has the credits of its incarnation. -/
theorem ownCredits_of_follows {history : List AgentBusEvent}
    (h : (detectorAfter weights history).Follows history) {pid api : UInt32}
    (hown : callsSince pid history = incarnationCalls pid history)
    (hroom : (trackedPids (history ++ [.behaviorObserved pid api])).length ≤ maxTrackedPids)
    (hcalls : (callsSince pid history).count api + 1 < 4294967296) : OwnCredits weights history pid api := by
  obtain ⟨hfinding, _⟩ := h.observe_eq pid api hroom
  obtain ⟨_, hrunKey, hchains⟩ := (h.slots pid).observe api hcalls
  have hnext := (h.called pid api hroom hcalls).slots pid
  rw [callsSince_concat, callsStep, if_pos rfl] at hnext
  have hinc : incarnationCalls pid (history ++ [.behaviorObserved pid api]) = callsSince pid history ++ [api] := by
    rw [incarnationCalls_concat, incarnationStep, if_pos rfl, hown]
  rw [← hfinding] at hrunKey hchains
  refine ⟨fun chain _ member _ => ?_, fun chain hchain => ?_, fun hset => (hrunKey.mp hset).1,
    fun chain hcomplete hbefore => ?_⟩
  · rw [hinc, hnext.counts]
  · rw [hinc]
    exact ((hchains chain).mp hchain).1
  · rw [hinc] at hcomplete
    rw [← hown] at hbefore
    exact (hchains chain).mpr ⟨hcomplete, hbefore⟩

theorem CreditsOwn.concat {log : List AgentBusEvent} (h : CreditsOwn weights log) {event : AgentBusEvent}
    (hevent : ∀ pid api, event = .behaviorObserved pid api → OwnCredits weights log pid api) :
    CreditsOwn weights (log ++ [event]) := by
  intro history pid api rest hsplit
  rcases rest.eq_nil_or_concat with rfl | ⟨rest, last, rfl⟩
  · obtain ⟨rfl, hlast⟩ := List.append_inj' hsplit rfl
    exact hevent pid api (List.cons.inj hlast).1
  · rw [List.concat_eq_append, ← List.cons_append, ← List.append_assoc] at hsplit
    exact h history pid api rest (List.append_inj' hsplit rfl).1

variable {live live' : UInt32 → Prop} {log : List AgentBusEvent}

theorem LogApart.mono (h : LogApart weights live log) (hlive : ∀ pid, live' pid → live pid) :
    LogApart weights live' log := ⟨h.detector, fun pid hpid => h.own pid (hlive pid hpid), h.credits⟩

theorem candidate_quiet (detector : ChainDetector) {event : AgentBusEvent} (h : event.quiet = true) :
    (scoringCandidate weights detector event).2 = detector := by
  cases event <;> simp_all [scoringCandidate, AgentBusEvent.quiet]

/-- Events that are no entry, exit or call. -/
theorem LogApart.other (h : LogApart weights live log) {event : AgentBusEvent} (hquiet : event.quiet = true)
    (hentry : ∀ pid name, event ≠ .processEnteredScope pid name) : LogApart weights live (log ++ [event]) := by
  refine ⟨?_, fun pid hpid => ?_, h.credits.concat fun pid api hevent => ?_⟩
  · rw [detectorAfter_concat, candidate_quiet _ hquiet]
    exact h.detector.quiet hquiet
  · rw [callsSince_concat, incarnationCalls_concat, callsStep_quiet hquiet, h.own pid hpid]
    cases event <;> simp_all [incarnationStep, AgentBusEvent.quiet]
  · simp [hevent, AgentBusEvent.quiet] at hquiet

theorem LogApart.others (h : LogApart weights live log) {events : List AgentBusEvent}
    (hothers : ∀ event ∈ events, event.quiet = true ∧ ∀ pid name, event ≠ .processEnteredScope pid name) :
    LogApart weights live (log ++ events) := by
  induction events generalizing log with
  | nil => rwa [List.append_nil]
  | cons event events ih =>
    obtain ⟨⟨hquiet, hentry⟩, hrest⟩ := List.forall_mem_cons.mp hothers
    rw [List.append_cons]
    exact ih (h.other hquiet hentry) hrest

theorem LogApart.entered (h : LogApart weights live log) {pid : UInt32} (name : String)
    (hfresh : callsSince pid log = []) (hlive : ∀ other, live' other → other = pid ∨ live other) :
    LogApart weights live' (log ++ [.processEnteredScope pid name]) := by
  refine ⟨?_, fun other hother => ?_, h.credits.concat fun _ _ hevent => (nomatch hevent)⟩
  · rw [detectorAfter_concat]
    exact h.detector.quiet rfl
  · rw [callsSince_concat, incarnationCalls_concat, callsStep_quiet rfl]
    show callsSince other log = if pid = other then [] else incarnationCalls other log
    by_cases hpid : pid = other
    · rw [if_pos hpid, ← hpid, hfresh]
    · rw [if_neg hpid]
      exact h.own other ((hlive other hother).resolve_left (Ne.symm hpid))

theorem LogApart.exited (h : LogApart weights live log) {pid : UInt32} (name : String)
    (hlive : ∀ other, live' other → other ≠ pid ∧ live other) :
    LogApart weights live' (log ++ [.processExitedScope pid name]) := by
  refine ⟨?_, fun other hother => ?_, h.credits.concat fun _ _ hevent => (nomatch hevent)⟩
  · rw [detectorAfter_concat]
    exact h.detector.exited pid name
  · obtain ⟨hpid, hbefore⟩ := hlive other hother
    rw [callsSince_concat, incarnationCalls_concat]
    show (if pid = other then [] else callsSince other log) = incarnationCalls other log
    rw [if_neg (Ne.symm hpid)]
    exact h.own other hbefore

/-- What the tracker publishes of an admitted start. -/
theorem LogApart.started (h : LogApart weights live log) {pid : UInt32} (name : String) (target : Bool)
    (hfresh : callsSince pid log = []) (hlive : ∀ other, live' other → other = pid ∨ live other) :
    LogApart weights live' (log ++
      ((if target then [.targetLaunched name] else []) ++ [.processEnteredScope pid name])) := by
  cases target with
  | false => exact h.entered name hfresh hlive
  | true =>
    rw [if_pos rfl, ← List.append_assoc]
    refine (h.other rfl (by simp)).entered name ?_ hlive
    rw [callsSince_concat, callsStep_quiet rfl, hfresh]

theorem LogApart.stopped (h : LogApart weights live log) {pid : UInt32} (name : String) (dead : Bool)
    (hlive : ∀ other, live' other → other ≠ pid ∧ live other) :
    LogApart weights live' (log ++ .processExitedScope pid name :: if dead then [.scopeDied] else []) := by
  rw [List.append_cons]
  cases dead with
  | false => exact (List.append_nil (log ++ [_])).symm ▸ h.exited name hlive
  | true => exact (h.exited name hlive).other rfl (by simp)

theorem LogApart.called (h : LogApart weights live log) {pid api : UInt32} (hpid : live pid)
    (hroom : (trackedPids (log ++ [.behaviorObserved pid api])).length ≤ maxTrackedPids)
    (hcalls : (callsSince pid log).count api + 1 < 4294967296) :
    LogApart weights live (log ++ [.behaviorObserved pid api]) := by
  refine ⟨?_, fun other hother => ?_, h.credits.concat fun caller called hevent => ?_⟩
  · rw [detectorAfter_concat]
    exact h.detector.called pid api hroom hcalls
  · rw [callsSince_concat, incarnationCalls_concat, callsStep, incarnationStep, h.own other hother]
  · cases hevent
    exact ownCredits_of_follows h.detector (h.own pid hpid) hroom hcalls

/-- The events of a step are published behind the log. -/
theorem published_source (agent : Pipeline) (event : SourceEvent) (now : ℤ) :
    (trackerStep lower config agent (.source event now)).published =
      agent.published ++ emitted agent (handleSource lower config agent now event) :=
  published_step agent (.source event now)

theorem Apart.step {s : Pipeline} (h : Apart weights s) {op : TrackerOp} (hop : incarnationsApart lower s op = true) :
    Apart weights (trackerStep lower config s op) := by
  obtain ⟨sets, hrefines⟩ := h.scope
  have hscope := @Refines.step lower config s sets hrefines op
  refine ⟨⟨_, hscope⟩, ?_⟩
  -- who is live was live before, or is the one admitted
  have hlive : ∀ pid, ScopeTracker.isScoped (trackerStep lower config s op).state pid = true →
      ScopeTracker.isScoped s.state pid = true ∨ admitted lower s op = some pid := fun pid => scoped_step
  have hsame (hnone : admitted lower s op = none) : ∀ pid,
      ScopeTracker.isScoped (trackerStep lower config s op).state pid = true →
      ScopeTracker.isScoped s.state pid = true := fun pid hscoped =>
    (hlive pid hscoped).resolve_right (by simp [hnone])
  cases op with
  | expect image => exact h.log
  | source event now =>
    rw [published_source]
    cases event with
    | processStarted data =>
      rw [emitted_started]
      by_cases hentered : (s.tracker.processEntered lower s.state data now).1 = true
      · have hadmitted : admitted lower s (.source (.processStarted data) now) = some data.pid := by
          simp [admitted, hentered]
        have hfresh : callsSince data.pid s.published = [] := by
          simpa [incarnationsApart, hadmitted] using hop
        have hlive' : ∀ pid, ScopeTracker.isScoped
            (trackerStep lower config s (.source (.processStarted data) now)).state pid = true →
            pid = data.pid ∨ ScopeTracker.isScoped s.state pid = true := fun pid hscoped =>
          (hlive pid hscoped).symm.imp_left fun heq => (Option.some.inj (hadmitted.symm.trans heq)).symm
        rw [if_pos hentered]
        exact h.log.started data.name _ hfresh hlive'
      · rw [if_neg hentered, List.append_nil]
        exact h.log.mono (hsame (by simp [admitted, hentered]))
    | processStopped data =>
      rw [emitted_stopped]
      by_cases hexited : (ScopeTracker.processExited s.state data now).1 = true
      · have hlive' : ∀ pid, ScopeTracker.isScoped
            (trackerStep lower config s (.source (.processStopped data) now)).state pid = true →
            pid ≠ data.pid ∧ ScopeTracker.isScoped s.state pid = true := by
          intro pid hscoped
          refine ⟨?_, hsame rfl pid hscoped⟩
          have hsets := (hscope.live pid).mp hscoped
          simp only [liveStep, LiveSets.stop, Set.mem_sdiff, Set.mem_singleton_iff] at hsets
          exact hsets.2
        rw [if_pos hexited]
        exact h.log.stopped data.name _ hlive'
      · rw [if_neg hexited, List.append_nil]
        exact h.log.mono (hsame rfl)
    | behaviorCall data =>
      rw [emitted_called]
      by_cases hcrosses : (isScoringRelevant data.api && ScopeTracker.isScoped s.state data.pid) = true
      · rw [if_pos hcrosses]
        obtain ⟨hroom, hcalls⟩ :
            (trackedPids (s.published ++ [.behaviorObserved data.pid data.api])).length ≤ maxTrackedPids ∧
              (callsSince data.pid s.published).count data.api + 1 < 4294967296 := by
          simpa [incarnationsApart, hcrosses] using hop
        exact (h.log.called (Bool.and_eq_true_iff.mp hcrosses).2 hroom hcalls).mono (hsame rfl)
      · rw [if_neg hcrosses, List.append_nil]
        exact h.log.mono (hsame rfl)
    | fileWritten data =>
      rw [emitted_written]
      exact (h.log.others (by simp [AgentBusEvent.quiet])).mono (hsame rfl)
    | fileClosed data =>
      rw [emitted_released s now data (.inl rfl)]
      exact (h.log.others (by simp [AgentBusEvent.quiet])).mono (hsame rfl)
    | fileCleanedUp data =>
      rw [emitted_released s now data (.inr rfl)]
      exact (h.log.others (by simp [AgentBusEvent.quiet])).mono (hsame rfl)
    | other =>
      rw [handleSource, emitted_nothing rfl, List.append_nil]
      exact h.log

end

/-- From a fresh session, in every run whose starts come apart: each credit rests on calls of the incarnation
it is for, and each incarnation has its own. -/
theorem incarnations_credited (weights : ScoreWeights) (lower : String → String) (config : Config)
    (agent : Pipeline) (hfresh : agent.state.currentSession.map (·.scopedProcesses) = some [])
    (hpublished : agent.published = []) (ops : List TrackerOp)
    (halong : Along (trackerStep lower config) (fun s op => incarnationsApart lower s op = true) agent ops) :
    CreditsOwn weights (run (trackerStep lower config) agent ops).published := by
  have hstart : Apart weights agent := by
    have hrefines := Refines.fresh hfresh
    refine ⟨⟨_, hrefines⟩, ?_⟩
    rw [hpublished]
    refine ⟨ChainDetector.initial_follows, fun pid hscoped => rfl, fun history pid api rest hsplit => ?_⟩
    simp at hsplit
  exact (halong.invariant (I := Apart weights) (fun s op h hop => h.step hop) hstart).log.credits

/-- The injection of a pid, its exit, and the injection of the process that gets the pid. -/
theorem twoIncarnations_credited :
    CreditsOwn ⟨4, 5, 3, 20, 40⟩
      (run (trackerStep id ⟨"explorer.exe", "evil.exe", true, ⟨[.all]⟩, ⟨"actor.exe", []⟩⟩)
        (boot id ⟨"explorer.exe", "evil.exe", true, ⟨[.all]⟩, ⟨"actor.exe", []⟩⟩
          (openSessionIfNeeded ⟨[60], 0, 0, true, true⟩ 0 ⟨1, []⟩) 16)
        [.source (.processStarted ⟨7, none, "evil.exe", none, none⟩) 1, .source (.behaviorCall ⟨7, 9⟩) 2,
         .source (.behaviorCall ⟨7, 4⟩) 3, .source (.processStopped ⟨7, "evil.exe"⟩) 4,
         .source (.processStarted ⟨7, none, "evil.exe", none, none⟩) 5, .source (.behaviorCall ⟨7, 4⟩) 6,
         .source (.behaviorCall ⟨7, 9⟩) 7]).published :=
  incarnations_credited ⟨4, 5, 3, 20, 40⟩ id ⟨"explorer.exe", "evil.exe", true, ⟨[.all]⟩, ⟨"actor.exe", []⟩⟩
    (boot id ⟨"explorer.exe", "evil.exe", true, ⟨[.all]⟩, ⟨"actor.exe", []⟩⟩
      (openSessionIfNeeded ⟨[60], 0, 0, true, true⟩ 0 ⟨1, []⟩) 16) rfl rfl _ (by decide)

/-- The stop is lost: the new process is credited with a chain it only made half of. -/
theorem lostStop_leaksChain :
    ¬ CreditsOwn ⟨4, 5, 3, 20, 40⟩
      (run (trackerStep id ⟨"explorer.exe", "evil.exe", true, ⟨[.all]⟩, ⟨"actor.exe", []⟩⟩)
        (boot id ⟨"explorer.exe", "evil.exe", true, ⟨[.all]⟩, ⟨"actor.exe", []⟩⟩
          (openSessionIfNeeded ⟨[60], 0, 0, true, true⟩ 0 ⟨1, []⟩) 16)
        [.source (.processStarted ⟨7, none, "evil.exe", none, none⟩) 1, .source (.behaviorCall ⟨7, 9⟩) 2,
         .source (.processStarted ⟨7, none, "evil.exe", none, none⟩) 3,
         .source (.behaviorCall ⟨7, 4⟩) 4]).published := by
  intro h
  have hcredits := h [.targetLaunched "evil.exe", .processEnteredScope 7 "evil.exe", .behaviorObserved 7 9,
    .targetLaunched "evil.exe", .processEnteredScope 7 "evil.exe"] 7 4 [] rfl
  exact absurd (hcredits.complete .injection (by decide)) (by decide)

end SecOutfall.Agent
