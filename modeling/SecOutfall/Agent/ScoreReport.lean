import SecOutfall.Agent.ScoreMeaning
import SecOutfall.Foundations.Runs

/-! The score of `study.score`: two hops over the bus, from the tracker to the scoring plugin and from
there to the session manager, and a finalize that reads what has arrived.

A finalize for `ScopeDied` runs on the manager's bus consumer, which receives nothing any more. -/
namespace SecOutfall.Agent
open Runs
set_option autoImplicit false

/-! ## Receiving -/

/-- The next event for a receiver at `next`, and where it stands then. -/
def Bus.recv (bus : Bus) (next : ℕ) : Option (AgentBusEvent × ℕ) :=
  match bus.unread next with
  | [] => none
  | event :: rest => some (event, bus.log.length - rest.length)

def Bus.lags (bus : Bus) (next : ℕ) : Bool := next + bus.capacity < bus.log.length

def raisesIn (events : List AgentBusEvent) : List UInt32 :=
  events.filterMap fun
    | .sessionScoreRaised score => some score
    | _ => none

/-! ## Model -/

/-- The manager with its one finalize, and the two bus consumers. As history, the bus log when the finalize
was accepted, and how long the log was when the scoring plugin had answered the last event of it. -/
structure Reporting where
  manager : SessionManager
  finalize : Option Finalize
  scoring : Scoring
  scoringNext : ℕ
  scoringStopped : Bool
  consumerNext : ℕ
  consumerStopped : Bool
  accepted : List AgentBusEvent
  answered : ℕ

def Reporting.initial (agent : Pipeline) : Reporting :=
  ⟨⟨agent, false, false, 0, [], []⟩, none, .initial, 0, false, 0, false, [], 0⟩

def Reporting.log (s : Reporting) : List AgentBusEvent := s.manager.agent.bus.log

inductive ReportOp where
  | pipeline (op : Op)
  | scoringRecv
  | scoringStop
  | consumerRecv (nowMs : ℤ)
  | consumerStop
  | finalize (reason : FinalizeReason) (nowMs : ℤ)
  | finalizeStep (ok : Bool)
  deriving DecidableEq, Repr

def Reporting.begin (s : Reporting) (reason : FinalizeReason) (nowMs : ℤ) : Reporting :=
  match finalizeSwap s.manager reason nowMs with
  | (_, none) => s
  | (manager, some finalize) => { s with manager, finalize := some finalize, accepted := s.log }

section
variable (weights : ScoreWeights) (lower : String → String) (config : Config) (session : SessionConfig)
  (autoshutdown : Bool)

def Reporting.scoringRecv (s : Reporting) : Reporting :=
  match s.manager.agent.bus.recv s.scoringNext with
  | none => s
  | some (event, next) =>
    let scoring := s.scoring.recv weights event
    let raised := scoring.raised.drop s.scoring.raised.length
    let bus := s.manager.agent.bus.publish (raised.map .sessionScoreRaised)
    { s with
      manager := { s.manager with agent := { s.manager.agent with bus } }
      scoring
      scoringNext := next
      answered :=
        if s.finalize.isNone || decide (s.scoringNext < s.accepted.length) then bus.log.length
        else s.answered }

def Reporting.consumerRecv (s : Reporting) (nowMs : ℤ) : Reporting :=
  match s.manager.agent.bus.recv s.consumerNext with
  | none => s
  | some (event, next) =>
    let s := { s with consumerNext := next }
    match event with
    | .scopeDied =>
      -- the finalize is awaited here, and the loop left behind it
      if autoshutdown then { s.begin .deadScope nowMs with consumerStopped := true } else s
    | .sessionScoreRaised score =>
      { s with manager := { s.manager with maxScore := max s.manager.maxScore score } }
    | _ => s

def reportStep (s : Reporting) : ReportOp → Reporting
  -- the scoring plugin alone raises
  | .pipeline (.scoreRaised _) => s
  | .pipeline op => { s with manager := { s.manager with agent := Agent.step lower config s.manager.agent op } }
  | .scoringRecv => if s.scoringStopped then s else s.scoringRecv weights
  | .scoringStop => { s with scoringStopped := true }
  | .consumerRecv nowMs => if s.consumerStopped then s else s.consumerRecv autoshutdown nowMs
  | .consumerStop => { s with consumerStopped := true }
  | .finalize reason nowMs => s.begin reason nowMs
  | .finalizeStep ok =>
    match s.finalize with
    | none => s
    | some finalize =>
      let (manager, next) := finalizeStep lower session s.manager finalize ok
      { s with manager, finalize := some next }

/-! ## What the score covers -/

def EnvelopePayload.score : EnvelopePayload → Option UInt32
  | .studyScore score _ => some score
  | _ => none

/-- No weight the accepted events earned is above a score that was published. -/
def CoversAccepted (s : Reporting) : Prop :=
  ∀ report ∈ s.manager.published, ∀ score ∈ report.1.payload.score,
    ∀ weight, Earned weights s.accepted weight → weight ≤ score

/-- The detector takes the call, and does not wrap its count. -/
def detectorTakes (history : List AgentBusEvent) (event : AgentBusEvent) : Bool :=
  decide ((trackedPids (history ++ [event])).length ≤ maxTrackedPids) &&
    match event with
    | .behaviorObserved pid api => decide ((callsSince pid history).count api + 1 < 4294967296)
    | _ => true

/-- A finalize reads the score when what the accepted events earned was earned by those the scoring plugin
had received, and its raises for them had been received in turn. No receiver lags. -/
def SettledBeforeRead (s : Reporting) (op : ReportOp) : Prop :=
  match op with
  | .scoringRecv =>
    s.manager.agent.bus.lags s.scoringNext = false ∧
      ∀ event ∈ s.log[s.scoringNext]?, detectorTakes (s.log.take s.scoringNext) event
  | .consumerRecv _ => s.manager.agent.bus.lags s.consumerNext = false
  | .finalizeStep _ =>
    s.finalize.any (·.point = .histogram) →
      (∀ weight, Earned weights s.accepted weight → ∃ earlier, weight ≤ earlier ∧
          (earlier = 0 ∨ Earned weights (s.accepted.take s.scoringNext) earlier)) ∧
        raisesIn ((s.log.take s.answered).drop s.consumerNext) = []
  | _ => True

end

/-! ## The bus -/

@[simp] theorem raisesIn_append (events events' : List AgentBusEvent) :
    raisesIn (events ++ events') = raisesIn events ++ raisesIn events' := List.filterMap_append

@[simp] theorem raisesIn_map (scores : List UInt32) : raisesIn (scores.map .sessionScoreRaised) = scores := by
  induction scores with
  | nil => rfl
  | cons score rest ih => exact congrArg (score :: ·) ih

theorem Bus.recv_eq {bus : Bus} {next : ℕ} (hlag : bus.lags next = false) :
    bus.recv next = bus.log[next]?.map fun event => (event, next + 1) := by
  have hstart : max next (bus.log.length - bus.capacity) = next := by
    simp only [Bus.lags, decide_eq_false_iff_not, Nat.not_lt] at hlag
    omega
  rw [Bus.recv, Bus.unread, hstart]
  cases hevent : bus.log[next]? with
  | none => rw [List.drop_eq_nil_of_le (List.getElem?_eq_none_iff.mp hevent)]; rfl
  | some event =>
    obtain ⟨hbound, hget⟩ := List.getElem?_eq_some_iff.mp hevent
    rw [List.drop_eq_getElem_cons hbound, hget]
    simp only [List.length_drop, Option.map_some, Option.some.injEq, Prod.mk.injEq, true_and]
    omega

theorem take_next {log : List AgentBusEvent} {next : ℕ} {event : AgentBusEvent} (h : log[next]? = some event) :
    log.take (next + 1) = log.take next ++ [event] := by
  rw [List.take_add_one, h, Option.toList_some]

section
variable {weights : ScoreWeights} {lower : String → String} {config : Config} {session : SessionConfig}
  {autoshutdown : Bool}

/-- The tracker raises no score. -/
theorem emitted_noRaise (agent : Pipeline) (now : ℤ) (event : SourceEvent) :
    raisesIn (emitted agent (handleSource lower config agent now event)) = [] := by
  cases event with
  | processStarted data =>
    rw [emitted_started]
    split
    · split <;> rfl
    · rfl
  | processStopped data =>
    rw [emitted_stopped]
    split
    · split <;> rfl
    · rfl
  | fileWritten data =>
    rw [emitted_written]
    cases (ScopeTracker.dropObserved lower agent.state data config.filter).1 <;> rfl
  | fileClosed data =>
    rw [emitted_released agent now data (.inl rfl)]
    cases (agent.tracker.dropClosed agent.state data).1 <;> rfl
  | fileCleanedUp data =>
    rw [emitted_released agent now data (.inr rfl)]
    cases (agent.tracker.dropClosed agent.state data).1 <;> rfl
  | behaviorCall data =>
    rw [emitted_called]
    split <;> rfl
  | other => rw [handleSource, emitted_nothing rfl]; rfl

theorem step_bus (agent : Pipeline) {op : Op} (hop : ∀ score, op ≠ .scoreRaised score) :
    ∃ events, raisesIn events = [] ∧ (step lower config agent op).bus = agent.bus.publish events := by
  have hnothing : agent.bus = agent.bus.publish [] := (Bus.publish_nil _).symm
  cases op with
  | source event eventTs now =>
    refine ⟨_, @emitted_noRaise lower config (drainExpectations lower agent) now event, ?_⟩
    obtain ⟨_, _, _, haccept⟩ := @accept_eq lower config agent now (stamped event eventTs)
    rw [step, haccept, stamped_sourceEvent]
    exact handleSource_bus (drainExpectations lower agent) now event
  | launchJob path =>
    simp only [step, launchFlow]
    split
    · exact ⟨_, rfl, rfl⟩
    · exact ⟨[], rfl, hnothing⟩
  | userActorJob => exact ⟨[], rfl, hnothing⟩
  | statisticsRecv =>
    refine ⟨[], rfl, ?_⟩
    simp only [step, statisticsRecv]
    split <;> exact hnothing
  | scoreRaised score => exact absurd rfl (hop score)

/-! ## Finalize -/

theorem finalizeStep_frame (manager : SessionManager) (finalize : Finalize) (ok : Bool) :
    (finalizeStep lower session manager finalize ok).1.agent.bus = manager.agent.bus ∧
      (finalizeStep lower session manager finalize ok).1.maxScore = manager.maxScore := by
  unfold finalizeStep
  cases finalize.point with
  | stamp => cases manager.agent.state.currentSession <;> exact ⟨rfl, rfl⟩
  | identify => cases manager.agent.state.currentSession <;> exact ⟨rfl, rfl⟩
  | clockShift => cases session.skipTimeManipulation || session.offsetSecs == 0 <;> exact ⟨rfl, rfl⟩
  | request => cases session.skipRebootAndShutdown <;> exact ⟨rfl, rfl⟩
  | _ => exact ⟨rfl, rfl⟩

/-- The score is read at the histogram. -/
theorem finalizeStep_scoreSent {manager : SessionManager} {finalize : Finalize} {ok : Bool}
    (hscore : (finalizeStep lower session manager finalize ok).2.point = .score) :
    finalize.point = .histogram ∧
      (finalizeStep lower session manager finalize ok).2.scoreSent = manager.maxScore := by
  revert hscore
  unfold finalizeStep
  cases hp : finalize.point with
  | stamp => cases manager.agent.state.currentSession <;> exact nofun
  | identify => cases manager.agent.state.currentSession <;> exact nofun
  | clockShift => cases session.skipTimeManipulation || session.offsetSecs == 0 <;> cases ok <;> exact nofun
  | request => cases session.skipRebootAndShutdown <;> exact nofun
  | histogram => exact fun _ => ⟨rfl, rfl⟩
  | returned => exact fun h => (nomatch hp.symm.trans h)
  | _ => exact nofun

theorem Finalize.report_score {finalize : Finalize} {report : Envelope} {score : UInt32}
    (hreport : finalize.report session = some report) (hscore : report.payload.score = some score) :
    finalize.point = .score ∧ score = finalize.scoreSent := by
  unfold Finalize.report at hreport
  cases hp : finalize.point with
  | score =>
    rw [hp] at hreport
    cases hreport
    exact ⟨rfl, (Option.some.inj hscore).symm⟩
  | request =>
    simp only [hp, Option.ite_none_left_eq_some, Option.some.injEq] at hreport
    obtain ⟨_, rfl⟩ := hreport
    simp only [rebootRequest, Finalize.emit] at hscore
    split at hscore <;> cases hscore
  | finalizing | dropsSummary | clockAdjusted | ended =>
    rw [hp] at hreport
    cases hreport
    cases hscore
  | _ =>
    rw [hp] at hreport
    cases hreport

/-! ## What both hops know -/

theorem Earned.extend {history history' : List AgentBusEvent} {weight : UInt32}
    (h : Earned weights history weight) (hstart : history <+: history') : Earned weights history' weight := by
  obtain ⟨rest, rfl⟩ := hstart
  induction rest using List.reverseRecOn with
  | nil => rwa [List.append_nil]
  | append_singleton rest event ih =>
    rw [← List.append_assoc]
    exact ih.mono event

theorem Scoring.recv_raised (scoring : Scoring) (event : AgentBusEvent) :
    ∃ raised, (scoring.recv weights event).raised = scoring.raised ++ raised := by
  unfold Scoring.recv
  generalize scoringCandidate weights scoring.detector event = result
  obtain ⟨candidate, detector⟩ := result
  cases candidate with
  | none => exact ⟨[], (List.append_nil _).symm⟩
  | some candidate =>
    by_cases hraise : scoring.maxScore < candidate
    · exact ⟨[candidate], if_pos hraise⟩
    · exact ⟨[], (if_neg hraise).trans (List.append_nil _).symm⟩

/-- The scoring plugin has followed the log up to where it stands and the manager's consumer has every raise
up to where it stands; the raises in the answered part of the log cover the due events received. -/
structure Heard (weights : ScoreWeights) (log : List AgentBusEvent) (scoring : Scoring) (scoringNext : ℕ)
    (maxScore : UInt32) (consumerNext : ℕ) (due : List AgentBusEvent) (answered : ℕ) : Prop where
  received : scoringNext ≤ log.length
  follows : scoring.Follows weights (log.take scoringNext)
  raised : raisesIn log = scoring.raised
  consumed : consumerNext ≤ log.length
  reached : ∀ score ∈ raisesIn (log.take consumerNext), score ≤ maxScore
  isDue : due <+: log
  bounded : answered ≤ log.length
  covered : ∀ weight, Earned weights (due.take scoringNext) weight →
    weight ≤ (raisesIn (log.take answered)).getLastD 0

section
variable {log due due' events : List AgentBusEvent} {scoring : Scoring} {scoringNext consumerNext answered : ℕ}
  {maxScore : UInt32} {event : AgentBusEvent}

/-- Others publish. -/
theorem Heard.publish (h : Heard weights log scoring scoringNext maxScore consumerNext due answered)
    (hraises : raisesIn events = []) (hdue : due' <+: log ++ events)
    (hsame : due'.take scoringNext = due.take scoringNext) :
    Heard weights (log ++ events) scoring scoringNext maxScore consumerNext due' answered := by
  have hlength : log.length ≤ (log ++ events).length := by simp
  constructor
  case received => exact Nat.le_trans h.received hlength
  case follows => exact (List.take_append_of_le_length h.received).symm ▸ h.follows
  case raised => rw [raisesIn_append, hraises, List.append_nil, h.raised]
  case consumed => exact Nat.le_trans h.consumed hlength
  case reached => exact (List.take_append_of_le_length h.consumed).symm ▸ h.reached
  case isDue => exact hdue
  case bounded => exact Nat.le_trans h.bounded hlength
  case covered => rw [List.take_append_of_le_length h.bounded, hsame]; exact h.covered

/-- The scoring plugin receives, and answers a due event with all it raised. -/
theorem Heard.score (h : Heard weights log scoring scoringNext maxScore consumerNext due answered)
    (hevent : log[scoringNext]? = some event) (htakes : detectorTakes (log.take scoringNext) event = true)
    (hevents : events = ((scoring.recv weights event).raised.drop scoring.raised.length).map .sessionScoreRaised)
    (hdue : due' <+: log ++ events) {answered' : ℕ}
    (hanswered : answered' = (log ++ events).length ∨
      answered' = answered ∧ due'.take (scoringNext + 1) = due.take scoringNext) :
    Heard weights (log ++ events) (scoring.recv weights event) (scoringNext + 1) maxScore consumerNext due'
      answered' := by
  have hlength : log.length ≤ (log ++ events).length := by simp
  have hnext : scoringNext + 1 ≤ log.length := (List.getElem?_eq_some_iff.mp hevent).1
  have hreceived : (log ++ events).take (scoringNext + 1) = log.take scoringNext ++ [event] := by
    rw [List.take_append_of_le_length hnext, take_next hevent]
  have hfollows : (scoring.recv weights event).Follows weights ((log ++ events).take (scoringNext + 1)) := by
    simp only [detectorTakes, Bool.and_eq_true, decide_eq_true_eq] at htakes
    rw [hreceived]
    refine h.follows.recv event htakes.1 fun pid api hcall => ?_
    subst hcall
    exact of_decide_eq_true htakes.2
  have hraised : raisesIn (log ++ events) = (scoring.recv weights event).raised := by
    obtain ⟨raised, hnew⟩ := @Scoring.recv_raised weights scoring event
    rw [raisesIn_append, h.raised, hevents, raisesIn_map, hnew, List.drop_left]
  constructor
  case received => exact Nat.le_trans hnext hlength
  case follows => exact hfollows
  case raised => exact hraised
  case consumed => exact Nat.le_trans h.consumed hlength
  case reached => exact (List.take_append_of_le_length h.consumed).symm ▸ h.reached
  case isDue => exact hdue
  case bounded =>
    obtain rfl | ⟨rfl, _⟩ := hanswered
    · exact Nat.le_refl _
    · exact Nat.le_trans h.bounded hlength
  case covered =>
    obtain rfl | ⟨rfl, hsame⟩ := hanswered
    · intro weight hearned
      have hstart : due'.take (scoringNext + 1) <+: (log ++ events).take (scoringNext + 1) :=
        List.prefix_take_iff.mpr ⟨(List.take_prefix _ _).trans hdue, List.length_take_le _ _⟩
      rw [List.take_length, hraised, hfollows.last]
      exact hfollows.greatest.2 (.inr (hearned.extend hstart))
    · rw [List.take_append_of_le_length h.bounded, hsame]
      exact h.covered

/-- The manager's consumer receives. -/
theorem Heard.consume (h : Heard weights log scoring scoringNext maxScore consumerNext due answered)
    (hevent : log[consumerNext]? = some event) {maxScore' : UInt32} (hmax : maxScore ≤ maxScore')
    (hscore : ∀ score, event = .sessionScoreRaised score → score ≤ maxScore') :
    Heard weights log scoring scoringNext maxScore' (consumerNext + 1) due answered := by
  constructor
  case received => exact h.received
  case follows => exact h.follows
  case raised => exact h.raised
  case consumed => exact (List.getElem?_eq_some_iff.mp hevent).1
  case reached =>
    rw [take_next hevent, raisesIn_append]
    intro score hmem
    obtain hbefore | hnew := List.mem_append.mp hmem
    · exact UInt32.le_trans (h.reached score hbefore) hmax
    · refine hscore score ?_
      cases event <;> simp [raisesIn] at hnew
      rw [hnew]
  case isDue => exact h.isDue
  case bounded => exact h.bounded
  case covered => exact h.covered

/-- Once the raises for the due events have arrived, what arrived covers them. -/
theorem Heard.settled (h : Heard weights log scoring scoringNext maxScore consumerNext due answered)
    (hdue : ∀ weight, Earned weights due weight → ∃ earlier, weight ≤ earlier ∧
      (earlier = 0 ∨ Earned weights (due.take scoringNext) earlier))
    (hunread : raisesIn ((log.take answered).drop consumerNext) = []) :
    ∀ weight, Earned weights due weight → weight ≤ maxScore := by
  have hlast : (raisesIn (log.take answered)).getLastD 0 ≤ maxScore := by
    have hsplit : log.take answered = (log.take consumerNext).take answered ++ (log.take answered).drop consumerNext := by
      rw [List.take_take, Nat.min_comm, ← List.take_take, List.take_append_drop]
    rw [hsplit, raisesIn_append, hunread, List.append_nil]
    rcases hraises : raisesIn ((log.take consumerNext).take answered) with _ | ⟨score, rest⟩
    · exact UInt32.zero_le
    · have hmem : (score :: rest).getLastD 0 ∈ raisesIn ((log.take consumerNext).take answered) := by
        rw [hraises, List.getLastD_cons]
        exact List.getLastD_mem_cons
      exact h.reached _ ((List.take_sublist _ _).filterMap _ |>.subset hmem)
  intro weight hearned
  obtain ⟨earlier, hle, rfl | hearlier⟩ := hdue weight hearned
  · exact UInt32.le_trans hle UInt32.zero_le
  · exact UInt32.le_trans hle (UInt32.le_trans (h.covered earlier hearlier) hlast)

end

/-! ## Runs -/

/-- What counts as accepted: all of the log until a finalize was. -/
def Reporting.due (s : Reporting) : List AgentBusEvent := if s.finalize.isNone then s.log else s.accepted

/-- The finalize has read a score that covers what was accepted, once it publishes one. -/
structure Reporting.Sent (weights : ScoreWeights) (s : Reporting) : Prop where
  taken : s.manager.finalized = s.finalize.isSome
  idle : s.finalize = none → ∀ report ∈ s.manager.published, report.1.payload.score = none
  sent : ∀ finalize ∈ s.finalize, finalize.point = .score →
    ∀ weight, Earned weights s.accepted weight → weight ≤ finalize.scoreSent
  covers : CoversAccepted weights s

structure Reporting.Inv (weights : ScoreWeights) (s : Reporting) : Prop where
  heard : Heard weights s.log s.scoring s.scoringNext s.manager.maxScore s.consumerNext s.due s.answered
  sent : s.Sent weights

theorem Reporting.Sent.of_manager {s s' : Reporting} (h : s.Sent weights)
    (hpublished : s'.manager.published = s.manager.published) (hfinalized : s'.manager.finalized = s.manager.finalized)
    (hfinalize : s'.finalize = s.finalize) (haccepted : s'.accepted = s.accepted) : s'.Sent weights := by
  obtain ⟨htaken, hidle, hsent, hcovers⟩ := h
  refine ⟨by rw [hfinalized, hfinalize, htaken], ?_, ?_, ?_⟩
  · rwa [hfinalize, hpublished]
  · rwa [hfinalize, haccepted]
  · rwa [CoversAccepted, hpublished, haccepted]

theorem Reporting.initial_inv {agent : Pipeline} (hlog : agent.bus.log = []) :
    (Reporting.initial agent).Inv weights := by
  refine ⟨?_, rfl, fun _ => by simp [initial], nofun, by simp [CoversAccepted, initial]⟩
  have hstart : (initial agent).log = [] := hlog
  rw [due, hstart]
  refine ⟨Nat.zero_le _, Scoring.initial_follows, rfl, Nat.zero_le _, by simp [raisesIn], List.prefix_rfl,
    Nat.zero_le _, fun weight hearned => ?_⟩
  exact absurd hearned (not_earned_nil weight)

/-- A finalize that was not the first changes nothing; the first takes the log as it is. -/
theorem Reporting.begin_inv {s : Reporting} (h : s.Inv weights) (reason : FinalizeReason) (nowMs : ℤ) :
    (s.begin reason nowMs).Inv weights := by
  unfold begin finalizeSwap
  have htaken := h.sent.taken
  cases hfinalized : s.manager.finalized with
  | true => exact h
  | false =>
    have hnone : s.finalize = none := by simpa [hfinalized] using htaken.symm
    have hdue : s.due = s.log := by rw [due, hnone]; rfl
    have hidle := h.sent.idle hnone
    refine ⟨hdue ▸ h.heard, rfl, nofun, fun finalize hmem hpoint => ?_, fun report hreport score hscore => ?_⟩
    · cases Option.some.inj hmem
      simp [Finalize.begin] at hpoint
    · rw [hidle report hreport] at hscore
      simp at hscore

theorem Reporting.pipeline_inv {s : Reporting} (h : s.Inv weights) {op : Op}
    (hop : ∀ score, op ≠ .scoreRaised score) :
    ({ s with manager := { s.manager with agent := step lower config s.manager.agent op } } : Reporting).Inv
      weights := by
  obtain ⟨events, hraises, hbus⟩ := @step_bus lower config s.manager.agent op hop
  have hlog : (step lower config s.manager.agent op).bus.log = s.log ++ events := congrArg Bus.log hbus
  refine ⟨?_, h.sent.of_manager rfl rfl rfl rfl⟩
  have hheard := h.heard
  unfold due log at hheard ⊢
  dsimp only
  rw [hlog]
  cases hfinalize : s.finalize with
  | none =>
    rw [hfinalize] at hheard
    exact hheard.publish hraises List.prefix_rfl (List.take_append_of_le_length hheard.received)
  | some finalize =>
    rw [hfinalize] at hheard
    exact hheard.publish hraises (hheard.isDue.trans (List.prefix_append _ _)) rfl

theorem Reporting.scoringRecv_inv {s : Reporting} (h : s.Inv weights)
    (hlag : s.manager.agent.bus.lags s.scoringNext = false)
    (htakes : ∀ event ∈ s.log[s.scoringNext]?, detectorTakes (s.log.take s.scoringNext) event = true) :
    (s.scoringRecv weights).Inv weights := by
  unfold scoringRecv
  rw [Bus.recv_eq hlag]
  cases hevent : s.manager.agent.bus.log[s.scoringNext]? with
  | none => exact h
  | some event =>
    refine ⟨?_, h.sent.of_manager rfl rfl rfl rfl⟩
    have hheard := h.heard
    have hroom := htakes event hevent
    have hbound : s.scoringNext + 1 ≤ s.log.length := (List.getElem?_eq_some_iff.mp hevent).1
    unfold due log at hheard ⊢
    cases hfinalize : s.finalize with
    | none =>
      rw [hfinalize] at hheard
      exact hheard.score hevent hroom rfl List.prefix_rfl (.inl rfl)
    | some finalize =>
      rw [hfinalize] at hheard
      by_cases hmore : s.scoringNext < s.accepted.length
      · exact hheard.score hevent hroom rfl (hheard.isDue.trans (List.prefix_append _ _))
          (.inl (if_pos (by simpa using hmore)))
      · refine hheard.score hevent hroom rfl (hheard.isDue.trans (List.prefix_append _ _))
          (.inr ⟨if_neg (by simpa using hmore), ?_⟩)
        show s.accepted.take (s.scoringNext + 1) = s.accepted.take s.scoringNext
        exact (List.take_of_length_le (by omega)).trans (List.take_of_length_le (by omega)).symm

theorem Reporting.consumerRecv_inv {s : Reporting} (h : s.Inv weights) (nowMs : ℤ)
    (hlag : s.manager.agent.bus.lags s.consumerNext = false) :
    (s.consumerRecv autoshutdown nowMs).Inv weights := by
  unfold consumerRecv
  rw [Bus.recv_eq hlag]
  cases hevent : s.manager.agent.bus.log[s.consumerNext]? with
  | none => exact h
  | some event =>
    have hskip (hquiet : ∀ score, event ≠ .sessionScoreRaised score) :
        ({ s with consumerNext := s.consumerNext + 1 } : Reporting).Inv weights :=
      ⟨h.heard.consume hevent (UInt32.le_refl _) fun score hraise => absurd hraise (hquiet score),
        h.sent.of_manager rfl rfl rfl rfl⟩
    dsimp only [Option.map_some]
    cases event with
    | scopeDied =>
      cases autoshutdown with
      | true =>
        obtain ⟨hheard, hsent⟩ := begin_inv (hskip nofun) .deadScope nowMs
        exact ⟨hheard, hsent.of_manager rfl rfl rfl rfl⟩
      | false => exact hskip nofun
    | sessionScoreRaised score =>
      refine ⟨h.heard.consume hevent Std.left_le_max fun other hraise => ?_, h.sent.of_manager rfl rfl rfl rfl⟩
      cases hraise
      exact Std.right_le_max
    | _ => exact hskip nofun

theorem Reporting.finalizeStep_inv {s : Reporting} (h : s.Inv weights) {finalize : Finalize}
    (hfinalize : s.finalize = some finalize) (ok : Bool)
    (hread : finalize.point = .histogram → ∀ weight, Earned weights s.accepted weight → weight ≤ s.manager.maxScore) :
    ({ s with
        manager := (finalizeStep lower session s.manager finalize ok).1
        finalize := some (finalizeStep lower session s.manager finalize ok).2 } : Reporting).Inv weights := by
  obtain ⟨hbus, hmax⟩ := @finalizeStep_frame lower session s.manager finalize ok
  have hgrows := @finalizeStep_grows lower session s.manager finalize ok
  have htaken := h.sent.taken
  constructor
  · have hheard := h.heard
    unfold due log at hheard ⊢
    rw [hfinalize] at hheard
    dsimp only
    rw [hbus, hmax]
    exact hheard
  · refine ⟨?_, nofun, fun next hnext hscore weight hearned => ?_, fun report hreport score hscore weight hearned => ?_⟩
    · dsimp only
      rw [hgrows.taken, htaken, hfinalize]
      rfl
    · cases Option.some.inj hnext
      obtain ⟨hhistogram, hsent⟩ := finalizeStep_scoreSent hscore
      rw [hsent]
      exact hread hhistogram weight hearned
    · rw [finalizeStep_published, List.mem_append, List.mem_map] at hreport
      obtain hbefore | ⟨envelope, henvelope, rfl⟩ := hreport
      · exact h.sent.covers report hbefore score hscore weight hearned
      · obtain ⟨hscorePoint, rfl⟩ := Finalize.report_score (Option.mem_toList.mp henvelope) hscore
        exact h.sent.sent finalize hfinalize hscorePoint weight hearned

theorem reportStep_inv {s : Reporting} {op : ReportOp} (h : s.Inv weights) (hop : SettledBeforeRead weights s op) :
    (reportStep weights lower config session autoshutdown s op).Inv weights := by
  cases op with
  | pipeline op =>
    cases op with
    | scoreRaised score => exact h
    | _ => exact Reporting.pipeline_inv h nofun
  | scoringRecv =>
    simp only [reportStep]
    split
    · exact h
    · exact Reporting.scoringRecv_inv h hop.1 hop.2
  | scoringStop => exact ⟨h.heard, h.sent.of_manager rfl rfl rfl rfl⟩
  | consumerRecv nowMs =>
    simp only [reportStep]
    split
    · exact h
    · exact Reporting.consumerRecv_inv h nowMs hop
  | consumerStop => exact ⟨h.heard, h.sent.of_manager rfl rfl rfl rfl⟩
  | finalize reason nowMs => exact Reporting.begin_inv h reason nowMs
  | finalizeStep ok =>
    simp only [reportStep]
    cases hfinalize : s.finalize with
    | none => exact h
    | some finalize =>
      refine Reporting.finalizeStep_inv h hfinalize ok fun hpoint => ?_
      have hdue : s.due = s.accepted := by rw [Reporting.due, hfinalize]; rfl
      obtain ⟨hearned, hunread⟩ := hop (by simp [hfinalize, hpoint])
      exact (hdue ▸ h.heard).settled hearned hunread

/-- Both receivers are at the end of what was accepted when the score is read. -/
def caughtUp (s : Reporting) : ReportOp → Bool
  | .scoringRecv =>
    !s.manager.agent.bus.lags s.scoringNext &&
      s.log[s.scoringNext]?.all (detectorTakes (s.log.take s.scoringNext))
  | .consumerRecv _ => !s.manager.agent.bus.lags s.consumerNext
  | .finalizeStep _ =>
    !s.finalize.any (·.point = .histogram) ||
      decide (s.accepted.length ≤ s.scoringNext) && (raisesIn ((s.log.take s.answered).drop s.consumerNext)).isEmpty
  | _ => true

theorem settled_of_caughtUp {s : Reporting} {op : ReportOp} (h : caughtUp s op = true) :
    SettledBeforeRead weights s op := by
  cases op with
  | scoringRecv => simpa [caughtUp, SettledBeforeRead, Option.all_eq_true] using h
  | consumerRecv nowMs => simpa [caughtUp, SettledBeforeRead] using h
  | finalizeStep ok =>
    intro hread
    simp only [caughtUp, hread, Bool.not_true, Bool.false_or, Bool.and_eq_true, decide_eq_true_eq,
      List.isEmpty_iff] at h
    obtain ⟨hreceived, hunread⟩ := h
    refine ⟨fun weight hearned => ⟨weight, UInt32.le_refl _, .inr ?_⟩, hunread⟩
    rwa [List.take_of_length_le hreceived]
  | _ => trivial

end

/-- In every run whose finalize reads the score when both hops have settled, the published score covers what
was accepted before the finalize. -/
theorem reported_score_covers (weights : ScoreWeights) (lower : String → String) (config : Config)
    (session : SessionConfig) (autoshutdown : Bool) (agent : Pipeline) (hlog : agent.bus.log = [])
    (ops : List ReportOp)
    (hsettled : Along (reportStep weights lower config session autoshutdown) (SettledBeforeRead weights)
      (.initial agent) ops) :
    CoversAccepted weights (run (reportStep weights lower config session autoshutdown) (.initial agent) ops) :=
  (hsettled.invariant (I := fun s : Reporting => s.Inv weights)
    (fun _ _ h hop => reportStep_inv h hop) (Reporting.initial_inv hlog)).sent.covers

/-- The interpreter drops a file, the plugin and the manager hear of it, and then the scope dies. -/
theorem heardDrop_covered :
    CoversAccepted ⟨4, 5, 3, 20, 40⟩
      (run (reportStep ⟨4, 5, 3, 20, 40⟩ id ⟨"explorer.exe", "evil.exe", true, ⟨[.all]⟩, ⟨"actor.exe", []⟩⟩
          ⟨[60], 0, 0, true, true⟩ true)
        (.initial (boot id ⟨"explorer.exe", "evil.exe", true, ⟨[.all]⟩, ⟨"actor.exe", []⟩⟩
          (openSessionIfNeeded ⟨[60], 0, 0, true, true⟩ 0 ⟨1, []⟩) 16))
        [.pipeline (.source (.processStarted ⟨7, none, "evil.exe", none, none⟩) none 1),
         .pipeline (.source (.fileWritten ⟨7, "C:\\x.txt"⟩) none 2),
         .scoringRecv, .scoringRecv, .scoringRecv,
         .pipeline (.source (.processStopped ⟨7, "evil.exe"⟩) none 3),
         .scoringRecv, .scoringRecv, .scoringRecv,
         .consumerRecv 4, .consumerRecv 4, .consumerRecv 4, .consumerRecv 4, .consumerRecv 4, .consumerRecv 4,
         .finalizeStep true, .finalizeStep true, .finalizeStep true, .finalizeStep true, .finalizeStep true]) := by
  refine reported_score_covers ⟨4, 5, 3, 20, 40⟩ id _ _ true _ rfl _ ?_
  refine Along.mono (P := fun s op => caughtUp s op = true) (fun _ _ => settled_of_caughtUp) ?_
  decide

/-- The scope dies before the raise for its drop is on the bus: the consumer that would receive it is the one
that finalizes. -/
theorem diedFirst_uncovered :
    ¬ CoversAccepted ⟨4, 5, 3, 20, 40⟩
      (run (reportStep ⟨4, 5, 3, 20, 40⟩ id ⟨"explorer.exe", "evil.exe", true, ⟨[.all]⟩, ⟨"actor.exe", []⟩⟩
          ⟨[60], 0, 0, true, true⟩ true)
        (.initial (boot id ⟨"explorer.exe", "evil.exe", true, ⟨[.all]⟩, ⟨"actor.exe", []⟩⟩
          (openSessionIfNeeded ⟨[60], 0, 0, true, true⟩ 0 ⟨1, []⟩) 16))
        [.pipeline (.source (.processStarted ⟨7, none, "evil.exe", none, none⟩) none 1),
         .pipeline (.source (.fileWritten ⟨7, "C:\\x.txt"⟩) none 2),
         .pipeline (.source (.processStopped ⟨7, "evil.exe"⟩) none 3),
         .scoringRecv, .scoringRecv, .scoringRecv,
         .consumerRecv 4, .consumerRecv 4, .consumerRecv 4, .consumerRecv 4, .consumerRecv 4, .consumerRecv 4,
         .finalizeStep true, .finalizeStep true, .finalizeStep true, .finalizeStep true, .finalizeStep true]) := by
  intro h
  have hle : (5 : UInt32) ≤ 0 :=
    h (⟨4, 1, 0, .studyScore 0 (some "Total")⟩, true) (by decide) 0 rfl 5
      (.dropObserved "C:\\x.txt" (some 7) (by decide))
  exact absurd hle (by decide)

end SecOutfall.Agent
