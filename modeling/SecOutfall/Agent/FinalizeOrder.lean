import SecOutfall.Agent.SessionManager
import SecOutfall.Foundations.Runs

/-! What a finalize attempts, in order, with the sequence numbers of its envelopes.

The deadline, a dead scope and a stop each call `finalize_session` from a task of its own; the swap lets one
of them on. Its attempts go on whatever they answer. The sequence counter does not wrap within a boot. -/
namespace SecOutfall.Agent
open Runs
set_option autoImplicit false

/-! ## Model -/

/-- A fallible call of finalize, with its answer. -/
inductive Attempt where
  | publish (envelope : Envelope) (seq : ℕ) (ok : Bool)
  | shiftClock (toTs : ℤ) (ok : Bool)
  | save (snapshot : ScopeState) (ok : Bool)
  deriving DecidableEq, Repr

def Attempt.envelope : Attempt → Option Envelope
  | .publish envelope _ _ => some envelope
  | _ => none

def Attempt.seq : Attempt → Option ℕ
  | .publish _ seq _ => some seq
  | _ => none

def Attempt.published : Attempt → Option (Envelope × Bool)
  | .publish envelope _ ok => some (envelope, ok)
  | _ => none

def Attempt.saved : Attempt → Option (ScopeState × Bool)
  | .save snapshot ok => some (snapshot, ok)
  | _ => none

def SessionConfig.shiftsClock (config : SessionConfig) : Bool :=
  !(config.skipTimeManipulation || config.offsetSecs == 0)

/-- The attempt of this point; `seq` is the next number on the wire. -/
def Finalize.attempts (config : SessionConfig) (finalize : Finalize) (seq : ℕ) (ok : Bool) : List Attempt :=
  match finalize.point with
  | .clockShift =>
    if config.shiftsClock then [.shiftClock (finalize.nowMs + config.offsetSecs * 1000) ok] else []
  | .save => [.save finalize.snapshot ok]
  | _ => (finalize.report config).toList.map fun envelope => .publish envelope seq ok

/-- The manager with its finalize, the wire's next number, and what finalize attempted. -/
structure Finishing where
  manager : SessionManager
  finalize : Option Finalize
  seq : ℕ
  attempts : List Attempt

def Finishing.initial (agent : Pipeline) (seq : ℕ) : Finishing :=
  ⟨⟨agent, false, false, 0, [], []⟩, none, seq, []⟩

inductive FinishOp where
  | pipeline (op : Op)
  | raiseScore (score : UInt32)
  | nextSeq
  | trigger (reason : FinalizeReason) (nowMs : ℤ)
  | finalizeStep (ok : Bool)
  deriving DecidableEq, Repr

def FinishOp.isStep : FinishOp → Bool
  | .finalizeStep _ => true
  | _ => false

section
variable (lower : String → String) (config : Config) (session : SessionConfig)

def finishStep (s : Finishing) : FinishOp → Finishing
  | .pipeline op =>
    { s with manager := { s.manager with agent := Agent.step lower config s.manager.agent op } }
  | .raiseScore score => { s with manager := { s.manager with maxScore := max s.manager.maxScore score } }
  -- some other publisher takes a number
  | .nextSeq => { s with seq := s.seq + 1 }
  | .trigger reason nowMs =>
    match finalizeSwap s.manager reason nowMs with
    | (_, none) => s
    | (manager, some finalize) => { s with manager, finalize := some finalize }
  | .finalizeStep ok =>
    match s.finalize with
    | none => s
    | some finalize =>
      let (manager, next) := Agent.finalizeStep lower session s.manager finalize ok
      { manager
        finalize := some next
        seq := s.seq + (finalize.report session).toList.length
        attempts := s.attempts ++ finalize.attempts session s.seq ok }

/-! ## The order -/

inductive AttemptKind where
  | finalizing | score | dropsSummary | shiftClock (ok : Bool) | clockAdjusted | save | ended | request | other
  deriving DecidableEq, Repr

def Attempt.kind : Attempt → AttemptKind
  | .publish envelope _ _ =>
    match envelope.payload with
    | .sessionFinalizing _ => .finalizing
    | .studyScore _ _ => .score
    | .studyDropsSummary _ => .dropsSummary
    | .clockAdjusted _ _ _ => .clockAdjusted
    | .sessionEnded => .ended
    | .studyShutdownRequested _ | .studyRebootRequested _ => .request
    | _ => .other
  | .shiftClock _ ok => .shiftClock ok
  | .save _ _ => .save

def clockKinds (shifted : Bool) : List AttemptKind :=
  if session.shiftsClock then .shiftClock shifted :: if shifted then [.clockAdjusted] else [] else []

def requestKinds : List AttemptKind := if session.skipRebootAndShutdown then [] else [.request]

/-- All of it: `clock.adjusted` only behind a clock that was shifted, one request unless gated. -/
def finalizeKinds (shifted : Bool) : List AttemptKind :=
  [.finalizing, .score, .dropsSummary] ++ clockKinds session shifted ++ [.save, .ended] ++ requestKinds session

/-- The attempts are the finalize sequence so far, under one study, session and timestamp and with growing
numbers, and all of it once `finalize_done` is set. They are what the broker and the store saw. -/
structure FinalizedInOrder (s : Finishing) : Prop where
  ordered : ∃ shifted, s.attempts.map Attempt.kind <+: finalizeKinds session shifted ∧
    (s.manager.finalizeDone = true → s.attempts.map Attempt.kind = finalizeKinds session shifted)
  identity : ∃ nowMs studyId sessionId, ∀ envelope ∈ s.attempts.filterMap Attempt.envelope,
    envelope.timestampMs = nowMs ∧ envelope.studyId = studyId ∧ envelope.sessionId = sessionId
  increasing : (s.attempts.filterMap Attempt.seq).Pairwise (· < ·)
  published : s.manager.published = s.attempts.filterMap Attempt.published
  saves : s.manager.saves = s.attempts.filterMap Attempt.saved

/-- The part of the sequence in front of a point. -/
def kindsBefore (shifted : Bool) : FinalizePoint → List AttemptKind
  | .stamp | .identify | .finalizing => []
  | .histogram | .score => [.finalizing]
  | .dropsSummary => [.finalizing, .score]
  | .clockShift => [.finalizing, .score, .dropsSummary]
  | .clockAdjusted => [.finalizing, .score, .dropsSummary, .shiftClock true]
  | .kill | .snapshot | .save => [.finalizing, .score, .dropsSummary] ++ clockKinds session shifted
  | .ended => [.finalizing, .score, .dropsSummary] ++ clockKinds session shifted ++ [.save]
  | .request => [.finalizing, .score, .dropsSummary] ++ clockKinds session shifted ++ [.save, .ended]
  | .complete | .returned => finalizeKinds session shifted

/-- Steps to go. -/
def FinalizePoint.rank : FinalizePoint → ℕ
  | .stamp => 14
  | .identify => 13
  | .finalizing => 12
  | .histogram => 11
  | .score => 10
  | .dropsSummary => 9
  | .clockShift => 8
  | .clockAdjusted => 7
  | .kill => 6
  | .snapshot => 5
  | .save => 4
  | .ended => 3
  | .request => 2
  | .complete => 1
  | .returned => 0

end

/-! ## One step -/

section
variable {lower : String → String} {config : Config} {session : SessionConfig} {manager : SessionManager}
  {finalize : Finalize}

/-- The attempts so far, and what the next points rely on. -/
def KindsAt (session : SessionConfig) (kinds : List AttemptKind) (point : FinalizePoint) : Prop :=
  ∃ shifted, kinds = kindsBefore session shifted point ∧ (point = .clockAdjusted → session.shiftsClock = true)

theorem rebootRequest_kind (seq : ℕ) (ok : Bool) :
    (Attempt.publish (rebootRequest session finalize) seq ok).kind = .request := by
  simp only [rebootRequest, Finalize.emit, Attempt.kind]
  cases session.uptimes.isEmpty || decide (session.uptimes.length ≤ finalize.sessionCount) <;> rfl

theorem finalizeStep_kinds {kinds : List AttemptKind} (h : KindsAt session kinds finalize.point)
    (hsession : manager.agent.state.currentSession.isSome) (seq : ℕ) (ok : Bool) :
    KindsAt session (kinds ++ (finalize.attempts session seq ok).map Attempt.kind)
      (finalizeStep lower session manager finalize ok).2.point := by
  obtain ⟨shifted, rfl, hclock⟩ := h
  obtain ⟨current, hcurrent⟩ := Option.isSome_iff_exists.mp hsession
  unfold finalizeStep Finalize.attempts Finalize.report
  cases hp : finalize.point with
  | stamp =>
    rw [hcurrent]
    exact ⟨shifted, rfl, fun h => by cases h⟩
  | identify =>
    rw [hcurrent]
    exact ⟨shifted, rfl, fun h => by cases h⟩
  | clockShift =>
    have hskip : (session.skipTimeManipulation || session.offsetSecs == 0) = !session.shiftsClock :=
      (Bool.not_not _).symm
    rw [hskip]
    cases hshifts : session.shiftsClock with
    | false =>
      exact ⟨shifted, by simp [kindsBefore, clockKinds, hshifts, Finalize.goto], fun h => by cases h⟩
    | true =>
      cases ok with
      | true => exact ⟨true, rfl, fun _ => hshifts⟩
      | false => exact ⟨false, by simp [kindsBefore, clockKinds, hshifts, Finalize.goto, Attempt.kind], fun h => by cases h⟩
  | clockAdjusted =>
    have hshifts := hclock hp
    exact ⟨true, by simp [kindsBefore, clockKinds, hshifts, Finalize.goto, Attempt.kind, Finalize.emit], fun h => by cases h⟩
  | save | ended =>
    exact ⟨shifted, by simp [kindsBefore, Finalize.goto, Attempt.kind, Finalize.emit], fun h => by cases h⟩
  | request =>
    cases hgated : session.skipRebootAndShutdown with
    | false =>
      refine ⟨shifted, ?_, fun h => by cases h⟩
      simp [kindsBefore, finalizeKinds, requestKinds, hgated, Finalize.goto, rebootRequest_kind]
    | true => exact ⟨shifted, by simp [kindsBefore, finalizeKinds, requestKinds, hgated, Finalize.goto], fun h => by cases h⟩
  | returned => exact ⟨shifted, by simp [kindsBefore, hp], fun h => by cases hp.symm.trans h⟩
  | finalizing | score | dropsSummary => exact ⟨shifted, rfl, fun h => by cases h⟩
  | _ => exact ⟨shifted, List.append_nil _, fun h => by cases h⟩

/-- The identity is taken once, before anything is published. -/
theorem finalizeStep_identity (ok : Bool) :
    (finalizeStep lower session manager finalize ok).2.nowMs = finalize.nowMs ∧
      (finalize.point ≠ .identify →
        (finalizeStep lower session manager finalize ok).2.studyId = finalize.studyId ∧
          (finalizeStep lower session manager finalize ok).2.sessionId = finalize.sessionId) := by
  unfold finalizeStep
  cases finalize.point with
  | stamp => cases manager.agent.state.currentSession <;> exact ⟨rfl, fun _ => ⟨rfl, rfl⟩⟩
  | identify => cases manager.agent.state.currentSession <;> exact ⟨rfl, fun h => absurd rfl h⟩
  | clockShift =>
    cases session.skipTimeManipulation || session.offsetSecs == 0 <;> exact ⟨rfl, fun _ => ⟨rfl, rfl⟩⟩
  | request => cases session.skipRebootAndShutdown <;> exact ⟨rfl, fun _ => ⟨rfl, rfl⟩⟩
  | _ => exact ⟨rfl, fun _ => ⟨rfl, rfl⟩⟩

theorem Finalize.report_identity {report : Envelope} (h : finalize.report session = some report) :
    report.timestampMs = finalize.nowMs ∧ report.studyId = finalize.studyId ∧ report.sessionId = finalize.sessionId := by
  unfold Finalize.report at h
  cases hp : finalize.point with
  | finalizing | score | dropsSummary | clockAdjusted | ended =>
    rw [hp] at h
    cases h
    exact ⟨rfl, rfl, rfl⟩
  | request =>
    simp only [hp, Option.ite_none_left_eq_some, Option.some.injEq] at h
    obtain ⟨_, rfl⟩ := h
    exact ⟨rfl, rfl, rfl⟩
  | _ =>
    rw [hp] at h
    cases h

/-- `finalize_done` is set by the last step, and no other. -/
theorem finalizeStep_done (hsession : manager.agent.state.currentSession.isSome)
    (h : manager.finalizeDone = true ↔ finalize.point = .returned) (ok : Bool) :
    (finalizeStep lower session manager finalize ok).1.finalizeDone = true ↔
      (finalizeStep lower session manager finalize ok).2.point = .returned := by
  obtain ⟨current, hcurrent⟩ := Option.isSome_iff_exists.mp hsession
  unfold finalizeStep
  cases hp : finalize.point with
  | stamp => simp [hcurrent, Finalize.goto, h, hp]
  | identify => simp [hcurrent, h, hp]
  | clockShift =>
    cases session.skipTimeManipulation || session.offsetSecs == 0 <;> cases ok <;> simp [Finalize.goto, h, hp]
  | request => cases session.skipRebootAndShutdown <;> simp [Finalize.goto, SessionManager.publish, h, hp]
  | complete => simp [Finalize.goto]
  | returned => simp [h, hp]
  | _ => simp [Finalize.goto, SessionManager.publish, h, hp]

theorem finalizeStep_rank (hsession : manager.agent.state.currentSession.isSome) (ok : Bool) :
    (finalizeStep lower session manager finalize ok).2.point.rank ≤ finalize.point.rank - 1 := by
  obtain ⟨current, hcurrent⟩ := Option.isSome_iff_exists.mp hsession
  unfold finalizeStep
  cases hp : finalize.point with
  | stamp => simp [hcurrent, Finalize.goto, FinalizePoint.rank]
  | identify => simp [hcurrent, FinalizePoint.rank]
  | clockShift =>
    cases session.skipTimeManipulation || session.offsetSecs == 0 <;> cases ok <;>
      simp [Finalize.goto, FinalizePoint.rank]
  | request => cases session.skipRebootAndShutdown <;> simp [Finalize.goto, FinalizePoint.rank]
  | returned => simp [hp, FinalizePoint.rank]
  | _ => simp [Finalize.goto, FinalizePoint.rank]

theorem finalizeStep_saves (ok : Bool) :
    (finalizeStep lower session manager finalize ok).1.saves =
      manager.saves ++ if finalize.point = .save then [(finalize.snapshot, ok)] else [] := by
  unfold finalizeStep
  cases finalize.point with
  | stamp => cases manager.agent.state.currentSession <;> simp
  | identify => cases manager.agent.state.currentSession <;> simp
  | clockShift => cases session.skipTimeManipulation || session.offsetSecs == 0 <;> simp
  | request => cases session.skipRebootAndShutdown <;> simp [SessionManager.publish]
  | _ => simp [SessionManager.publish]

/-! ## Attempts -/

theorem attempts_envelope (seq : ℕ) (ok : Bool) :
    (finalize.attempts session seq ok).filterMap Attempt.envelope = (finalize.report session).toList := by
  unfold Finalize.attempts Finalize.report
  cases finalize.point with
  | clockShift => cases hshifts : session.shiftsClock <;> simp [Attempt.envelope]
  | request => cases session.skipRebootAndShutdown <;> rfl
  | _ => rfl

theorem attempts_seq (seq : ℕ) (ok : Bool) :
    (finalize.attempts session seq ok).filterMap Attempt.seq = (finalize.report session).toList.map fun _ => seq := by
  unfold Finalize.attempts Finalize.report
  cases finalize.point with
  | clockShift => cases hshifts : session.shiftsClock <;> simp [Attempt.seq]
  | request => cases session.skipRebootAndShutdown <;> rfl
  | _ => rfl

theorem attempts_published (seq : ℕ) (ok : Bool) :
    (finalize.attempts session seq ok).filterMap Attempt.published =
      (finalize.report session).toList.map fun envelope => (envelope, ok) := by
  unfold Finalize.attempts Finalize.report
  cases finalize.point with
  | clockShift => cases hshifts : session.shiftsClock <;> simp [Attempt.published]
  | request => cases session.skipRebootAndShutdown <;> rfl
  | _ => rfl

theorem attempts_saved (seq : ℕ) (ok : Bool) :
    (finalize.attempts session seq ok).filterMap Attempt.saved =
      if finalize.point = .save then [(finalize.snapshot, ok)] else [] := by
  unfold Finalize.attempts Finalize.report
  cases finalize.point with
  | clockShift => cases hshifts : session.shiftsClock <;> simp [Attempt.saved]
  | request => cases session.skipRebootAndShutdown <;> rfl
  | _ => rfl

/-! ## Runs -/

structure Finishing.Inv (session : SessionConfig) (s : Finishing) : Prop where
  current : s.manager.agent.state.currentSession.isSome
  taken : s.manager.finalized = s.finalize.isSome
  idle : s.finalize = none → s.attempts = [] ∧ s.manager.finalizeDone = false
  kinds : ∀ f ∈ s.finalize, KindsAt session (s.attempts.map Attempt.kind) f.point
  done : ∀ f ∈ s.finalize, (s.manager.finalizeDone = true ↔ f.point = .returned)
  identity : ∀ f ∈ s.finalize, ∀ envelope ∈ s.attempts.filterMap Attempt.envelope,
    envelope.timestampMs = f.nowMs ∧ envelope.studyId = f.studyId ∧ envelope.sessionId = f.sessionId
  increasing : (s.attempts.filterMap Attempt.seq).Pairwise (· < ·)
  below : ∀ seq ∈ s.attempts.filterMap Attempt.seq, seq < s.seq
  published : s.manager.published = s.attempts.filterMap Attempt.published
  saves : s.manager.saves = s.attempts.filterMap Attempt.saved

theorem Finishing.initial_inv {agent : Pipeline} (hsession : agent.state.currentSession.isSome) (seq : ℕ) :
    (Finishing.initial agent seq).Inv session := by
  refine ⟨hsession, rfl, fun _ => ⟨rfl, rfl⟩, ?_, ?_, ?_, .nil, ?_, rfl, rfl⟩ <;> simp [initial]

theorem Finishing.Inv.finalizeStep {s : Finishing} (h : s.Inv session) {finalize : Finalize}
    (hfinalize : s.finalize = some finalize) (ok : Bool) :
    Finishing.Inv session
      { manager := (Agent.finalizeStep lower session s.manager finalize ok).1
        finalize := some (Agent.finalizeStep lower session s.manager finalize ok).2
        seq := s.seq + (finalize.report session).toList.length
        attempts := s.attempts ++ finalize.attempts session s.seq ok } := by
  have hgrows := @finalizeStep_grows lower session s.manager finalize ok
  have hkinds := h.kinds finalize hfinalize
  obtain ⟨hnow, hsame⟩ := @finalizeStep_identity lower session s.manager finalize ok
  constructor
  case current => exact hgrows.session h.current
  case taken => rw [hgrows.taken, h.taken, hfinalize]; rfl
  case idle => exact nofun
  case kinds =>
    rintro _ ⟨⟩
    rw [List.map_append]
    exact finalizeStep_kinds hkinds h.current s.seq ok
  case done =>
    rintro _ ⟨⟩
    exact finalizeStep_done h.current (h.done finalize hfinalize) ok
  case identity =>
    rintro _ ⟨⟩ envelope henvelope
    rw [List.filterMap_append, attempts_envelope, List.mem_append, Option.mem_toList] at henvelope
    by_cases hidentify : finalize.point = .identify
    · -- nothing is published yet
      obtain ⟨shifted, hnone, _⟩ := hkinds
      rw [hidentify, kindsBefore, List.map_eq_nil_iff] at hnone
      simp [hnone, Finalize.report, hidentify] at henvelope
    · obtain ⟨hstudy, hid⟩ := hsame hidentify
      rw [hnow, hstudy, hid]
      obtain hbefore | hnew := henvelope
      · exact h.identity finalize hfinalize envelope hbefore
      · exact Finalize.report_identity hnew
  case increasing =>
    rw [List.filterMap_append, attempts_seq, List.pairwise_append]
    refine ⟨h.increasing, ?_, fun seq hseq next hnext => ?_⟩
    · cases finalize.report session <;> simp
    · obtain ⟨_, _, rfl⟩ := List.mem_map.mp hnext
      exact h.below seq hseq
  case below =>
    intro seq hseq
    rw [List.filterMap_append, attempts_seq, List.mem_append] at hseq
    dsimp only
    obtain hbefore | hnew := hseq
    · have hlt := h.below seq hbefore
      omega
    · obtain ⟨envelope, henvelope, rfl⟩ := List.mem_map.mp hnew
      have hpos := List.length_pos_of_mem henvelope
      omega
  case published =>
    rw [finalizeStep_published, List.filterMap_append, attempts_published, h.published]
  case saves => rw [finalizeStep_saves, List.filterMap_append, attempts_saved, h.saves]

theorem finishStep_inv {s : Finishing} (h : s.Inv session) (op : FinishOp) :
    (finishStep lower config session s op).Inv session := by
  cases op with
  | pipeline op =>
    have hgrows := @pipeline_grows lower config s.manager op
    exact ⟨hgrows.session h.current, h.taken, h.idle, h.kinds, h.done, h.identity, h.increasing, h.below,
      h.published, h.saves⟩
  | raiseScore score =>
    exact ⟨h.current, h.taken, h.idle, h.kinds, h.done, h.identity, h.increasing, h.below, h.published, h.saves⟩
  | nextSeq =>
    exact ⟨h.current, h.taken, h.idle, h.kinds, h.done, h.identity, h.increasing,
      fun seq hseq => Nat.lt_succ_of_lt (h.below seq hseq), h.published, h.saves⟩
  | trigger reason nowMs =>
    simp only [finishStep, finalizeSwap]
    have htaken := h.taken
    cases hfinalized : s.manager.finalized with
    | true => exact h
    | false =>
      have hnone : s.finalize = none := by simpa [hfinalized] using htaken.symm
      obtain ⟨hattempts, hdone⟩ := h.idle hnone
      refine ⟨h.current, rfl, nofun, ?_, ?_, ?_, h.increasing, h.below, h.published, h.saves⟩
      · rintro _ ⟨⟩
        rw [hattempts]
        exact ⟨false, rfl, nofun⟩
      · rintro _ ⟨⟩
        simp [hdone, Finalize.begin]
      · rintro _ ⟨⟩
        simp [hattempts]
  | finalizeStep ok =>
    simp only [finishStep]
    cases hfinalize : s.finalize with
    | none => exact h
    | some finalize => exact h.finalizeStep hfinalize ok

theorem kindsBefore_isPrefix (shifted : Bool) (point : FinalizePoint)
    (hclock : point = .clockAdjusted → session.shiftsClock = true) :
    ∃ shifted', kindsBefore session shifted point <+: finalizeKinds session shifted' ∧
      (point = .returned → kindsBefore session shifted point = finalizeKinds session shifted') := by
  cases point with
  | clockAdjusted =>
    refine ⟨true, ⟨.clockAdjusted :: [.save, .ended] ++ requestKinds session, ?_⟩, nofun⟩
    simp [kindsBefore, finalizeKinds, clockKinds, hclock rfl]
  | complete | returned => exact ⟨shifted, List.prefix_rfl, fun _ => rfl⟩
  | stamp | identify | finalizing => exact ⟨shifted, List.nil_prefix, nofun⟩
  | histogram | score | dropsSummary | clockShift =>
    refine ⟨shifted, ?_, nofun⟩
    simp [kindsBefore, finalizeKinds]
  | _ =>
    refine ⟨shifted, ?_, nofun⟩
    simp [kindsBefore, finalizeKinds, List.append_assoc, List.prefix_append]

theorem Finishing.Inv.inOrder {s : Finishing} (h : s.Inv session) : FinalizedInOrder session s := by
  refine ⟨?_, ?_, h.increasing, h.published, h.saves⟩
  · cases hfinalize : s.finalize with
    | none =>
      obtain ⟨hattempts, hdone⟩ := h.idle hfinalize
      exact ⟨false, by simp [hattempts], by simp [hdone]⟩
    | some finalize =>
      obtain ⟨shifted, hkinds, hclock⟩ := h.kinds finalize hfinalize
      obtain ⟨shifted', hbefore, hall⟩ := kindsBefore_isPrefix shifted finalize.point hclock
      rw [hkinds]
      exact ⟨shifted', hbefore, fun hdone => hall ((h.done finalize hfinalize).mp hdone)⟩
  · cases hfinalize : s.finalize with
    | none =>
      obtain ⟨hattempts, _⟩ := h.idle hfinalize
      exact ⟨0, 0, 0, by simp [hattempts]⟩
    | some finalize => exact ⟨finalize.nowMs, finalize.studyId, finalize.sessionId, h.identity finalize hfinalize⟩

/-- Every step of a finalize brings it closer to its end. -/
theorem finishRun_rank {s : Finishing} (h : s.Inv session) {finalize : Finalize}
    (hfinalize : s.finalize = some finalize) (ops : List FinishOp) :
    ∃ next, (run (finishStep lower config session) s ops).finalize = some next ∧
      next.point.rank ≤ finalize.point.rank - ops.countP FinishOp.isStep := by
  induction ops generalizing s finalize with
  | nil => exact ⟨finalize, hfinalize, Nat.le_refl _⟩
  | cons op ops ih =>
    have hinv := @finishStep_inv lower config session s h op
    cases op with
    | finalizeStep ok =>
      have hstep : (finishStep lower config session s (.finalizeStep ok)).finalize =
          some (Agent.finalizeStep lower session s.manager finalize ok).2 := by simp [finishStep, hfinalize]
      obtain ⟨next, hnext, hrank⟩ := ih hinv hstep
      have hless := @finalizeStep_rank lower session s.manager finalize h.current ok
      refine ⟨next, hnext, ?_⟩
      rw [List.countP_cons_of_pos rfl]
      omega
    | trigger reason nowMs =>
      have hfinalized : s.manager.finalized = true := by rw [h.taken, hfinalize]; rfl
      have hstep : (finishStep lower config session s (.trigger reason nowMs)).finalize = some finalize := by
        simp [finishStep, finalizeSwap, hfinalized, hfinalize]
      exact ih hinv hstep
    | pipeline op => exact ih hinv hfinalize
    | raiseScore score => exact ih hinv hfinalize
    | nextSeq => exact ih hinv hfinalize

end

/-- With a session open, over any triggers and answers: what was attempted is the finalize sequence in order, and
`finalize_done` stands at its end; fourteen steps behind a trigger it is set. -/
theorem finalize_in_order (lower : String → String) (config : Config) (session : SessionConfig) (agent : Pipeline)
    (hsession : agent.state.currentSession.isSome) (seq : ℕ) (ops : List FinishOp) :
    FinalizedInOrder session (run (finishStep lower config session) (.initial agent seq) ops) ∧
      ∀ before reason nowMs after, ops = before ++ .trigger reason nowMs :: after →
        14 ≤ after.countP FinishOp.isStep →
        (run (finishStep lower config session) (.initial agent seq) ops).manager.finalizeDone = true := by
  have hstep (s : Finishing) (op : FinishOp) (h : s.Inv session) :
      (finishStep lower config session s op).Inv session := finishStep_inv h op
  have hinv (ops : List FinishOp) := run_invariant hstep (Finishing.initial_inv hsession seq) ops
  refine ⟨(hinv ops).inOrder, ?_⟩
  rintro before reason nowMs after rfl hsteps
  have hbefore := hinv (before ++ [.trigger reason nowMs])
  have hall := hinv (before ++ .trigger reason nowMs :: after)
  rw [List.append_cons, run_append] at hall ⊢
  -- the trigger started a finalize, or there was one
  have htaken : (run (finishStep lower config session) (.initial agent seq)
      (before ++ [.trigger reason nowMs])).manager.finalized = true := by
    rw [run_append, run_cons, run_nil]
    simp only [finishStep, finalizeSwap]
    split
    · rename_i hswap
      split at hswap
      · assumption
      · cases hswap
    · rename_i hswap
      split at hswap
      · cases hswap
      · cases hswap
        rfl
  obtain ⟨finalize, hfinalize⟩ := Option.isSome_iff_exists.mp (hbefore.taken ▸ htaken)
  obtain ⟨next, hnext, hrank⟩ := @finishRun_rank lower config session _ hbefore finalize hfinalize after
  have hstart : finalize.point.rank ≤ 14 := by cases finalize.point <;> decide
  have hreturned : next.point = .returned := by
    have hzero : next.point.rank = 0 := by omega
    cases hpoint : next.point <;> simp [hpoint, FinalizePoint.rank] at hzero
    rfl
  exact (hall.done next hnext).mpr hreturned

/-- Nothing succeeds and a second trigger comes in: the sequence is made all the same. -/
theorem failingFinalize_inOrder :
    FinalizedInOrder ⟨[60], 0, 30, false, false⟩
        (run (finishStep id ⟨"explorer.exe", "evil.exe", true, ⟨[.all]⟩, ⟨"actor.exe", []⟩⟩ ⟨[60], 0, 30, false, false⟩)
          (.initial (boot id ⟨"explorer.exe", "evil.exe", true, ⟨[.all]⟩, ⟨"actor.exe", []⟩⟩
            (openSessionIfNeeded ⟨[60], 0, 30, false, false⟩ 0 ⟨1, []⟩) 16) 2)
          (.nextSeq :: .trigger .deadline 9 :: .trigger .inboundRequest 10 ::
            List.replicate 14 (.finalizeStep false))) ∧
      (run (finishStep id ⟨"explorer.exe", "evil.exe", true, ⟨[.all]⟩, ⟨"actor.exe", []⟩⟩ ⟨[60], 0, 30, false, false⟩)
        (.initial (boot id ⟨"explorer.exe", "evil.exe", true, ⟨[.all]⟩, ⟨"actor.exe", []⟩⟩
          (openSessionIfNeeded ⟨[60], 0, 30, false, false⟩ 0 ⟨1, []⟩) 16) 2)
        (.nextSeq :: .trigger .deadline 9 :: .trigger .inboundRequest 10 ::
          List.replicate 14 (.finalizeStep false))).manager.finalizeDone = true := by
  obtain ⟨horder, hends⟩ := finalize_in_order id ⟨"explorer.exe", "evil.exe", true, ⟨[.all]⟩, ⟨"actor.exe", []⟩⟩
    ⟨[60], 0, 30, false, false⟩
    (boot id ⟨"explorer.exe", "evil.exe", true, ⟨[.all]⟩, ⟨"actor.exe", []⟩⟩
      (openSessionIfNeeded ⟨[60], 0, 30, false, false⟩ 0 ⟨1, []⟩) 16)
    (by decide) 2
    (.nextSeq :: .trigger .deadline 9 :: .trigger .inboundRequest 10 :: List.replicate 14 (.finalizeStep false))
  exact ⟨horder, hends [.nextSeq] .deadline 9 _ rfl (by decide)⟩

end SecOutfall.Agent
