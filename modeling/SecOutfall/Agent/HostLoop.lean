import SecOutfall.Agent.SessionManager
import SecOutfall.Foundations.Runs

/-! The host loop of `app/runtime.rs` against the three triggers of a finalize.

The deadline runs its finalize inside the scheduler task, a dead scope in the session manager's bus
consumer, a `ServiceStop` in the host itself. Leaving the loop cancels the scheduler, which drops
its future wherever that is suspended; the consumer is cancelled too, but it looks at its token
between events only and is joined. -/
namespace SecOutfall.Agent
open Runs
set_option autoImplicit false

/-! ## Model -/

/-- A task that may call `finalize_session` once. -/
inductive Task where
  | waiting
  | finalizing (finalize : Finalize)
  | finished
  | dropped
  deriving DecidableEq, Repr

/-- Why `run_until_stop` left its loop. -/
inductive Left where
  | serviceStop | finalized | channelClosed
  deriving DecidableEq, Repr

inductive Host where
  | looping
  | accepting (finalize : Finalize)
  | shuttingDown (left : Left)
  | returned (left : Left)
  deriving DecidableEq, Repr

/-- `RunningSession`, with the scheduler's deadline task and the manager's consumer. -/
structure RunningSession where
  manager : SessionManager
  deadline : Task
  schedulerCancelled : Bool
  consumer : Task
  consumerCancelled : Bool
  host : Host

inductive HostOp where
  | deadline (nowMs : ℤ)
  | deadlineStep (ok : Bool)
  | dropScheduler
  | scopeDied (nowMs : ℤ)
  | consumerStep (ok : Bool)
  | consumerStops
  | serviceStop (nowMs : ℤ)
  | hostStep (ok : Bool)
  | poll
  | stopClosed
  | stopPlugins
  | joinConsumer
  | pipeline (op : Op)
  deriving DecidableEq, Repr

section
variable (lower : String → String) (config : Config) (session : SessionConfig) (autoshutdown : Bool)

/-- A boot after `start`: the session is open, nobody has finalized it. -/
def RunningSession.start (loaded : ScopeState) (nowMs : ℤ) (busCapacity : ℕ) : RunningSession where
  manager :=
    ⟨boot lower config (openSessionIfNeeded session nowMs loaded) busCapacity, false, false, 0, [], []⟩
  deadline := .waiting
  schedulerCancelled := false
  consumer := .waiting
  consumerCancelled := false
  host := .looping

/-- Into `finalize_session`; whoever loses the swap is back at once. -/
def enterFinalize (manager : SessionManager) (reason : FinalizeReason) (nowMs : ℤ) :
    SessionManager × Task :=
  match finalizeSwap manager reason nowMs with
  | (manager, some finalize) => (manager, .finalizing finalize)
  | (manager, none) => (manager, .finished)

def resumeFinalize (manager : SessionManager) (finalize : Finalize) (ok : Bool) :
    SessionManager × Task :=
  let (manager, next) := finalizeStep lower session manager finalize ok
  (manager, if next.point = .returned then .finished else .finalizing next)

/-- Out of the loop: `scheduler.stop()`, then `kernel.shutdown()`. -/
def RunningSession.leave (s : RunningSession) (left : Left) : RunningSession :=
  { s with schedulerCancelled := true, host := .shuttingDown left }

/-- The host in `kernel.accept(ServiceStop)` with what its finalize came to. -/
def RunningSession.accepted (s : RunningSession) (manager : SessionManager) : Task → RunningSession
  | .finalizing finalize => { s with manager, host := .accepting finalize }
  | _ => { s with manager }.leave .serviceStop

def hasDeadline (manager : SessionManager) : Bool :=
  manager.agent.state.currentSession.any (·.scheduledDurationSecs.isSome)

def hostStep (s : RunningSession) : HostOp → RunningSession
  | .deadline nowMs =>
    if s.deadline = .waiting && !s.schedulerCancelled && hasDeadline s.manager then
      let (manager, deadline) := enterFinalize s.manager .deadline nowMs
      { s with manager, deadline }
    else s
  | .deadlineStep ok =>
    match s.deadline with
    | .finalizing finalize =>
      let (manager, deadline) := resumeFinalize lower session s.manager finalize ok
      { s with manager, deadline }
    | _ => s
  | .dropScheduler =>
    if s.schedulerCancelled && s.deadline != .finished then { s with deadline := .dropped } else s
  | .scopeDied nowMs =>
    if s.consumer = .waiting && !s.consumerCancelled && autoshutdown then
      let (manager, consumer) := enterFinalize s.manager .deadScope nowMs
      { s with manager, consumer }
    else s
  | .consumerStep ok =>
    match s.consumer with
    | .finalizing finalize =>
      let (manager, consumer) := resumeFinalize lower session s.manager finalize ok
      { s with manager, consumer }
    | _ => s
  | .consumerStops =>
    if s.consumer = .waiting && s.consumerCancelled then { s with consumer := .finished } else s
  | .serviceStop nowMs =>
    match s.host with
    | .looping =>
      let (manager, task) := enterFinalize s.manager .inboundRequest nowMs
      s.accepted manager task
    | _ => s
  | .hostStep ok =>
    match s.host with
    | .accepting finalize =>
      let (manager, task) := resumeFinalize lower session s.manager finalize ok
      s.accepted manager task
    | _ => s
  | .poll => if s.host = .looping && s.manager.finalizeDone then s.leave .finalized else s
  | .stopClosed => if s.host = .looping then s.leave .channelClosed else s
  | .stopPlugins =>
    match s.host with
    | .shuttingDown _ => { s with consumerCancelled := true }
    | _ => s
  | .joinConsumer =>
    match s.host with
    | .shuttingDown left =>
      if s.consumerCancelled && s.consumer = .finished then { s with host := .returned left } else s
    | _ => s
  | .pipeline op =>
    { s with manager := { s.manager with agent := Agent.step lower config s.manager.agent op } }

end

/-- The finalize ran to its end: it saved, published `session.ended` and said so. -/
structure SessionManager.Finalized (manager : SessionManager) : Prop where
  done : manager.finalizeDone = true
  saved : manager.saves ≠ []
  ended : ∃ report ∈ manager.published, report.1.payload = .sessionEnded

/-- A `ServiceStop` is not accepted while the deadline task is inside its finalize. -/
def stopsAlone (s : RunningSession) : HostOp → Bool
  | .serviceStop _ =>
    match s.host, s.deadline with
    | .looping, .finalizing _ => false
    | _, _ => true
  | _ => true

/-! ## What lasts -/

theorem SessionManager.Grows.finalizedNow {manager manager' : SessionManager}
    (h : manager.Grows manager') (hfinalized : manager.Finalized) : manager'.Finalized := by
  obtain ⟨report, hreport, hended⟩ := hfinalized.ended
  exact ⟨h.done hfinalized.done, h.saved hfinalized.saved, report, h.published report hreport, hended⟩

section
variable {lower : String → String} {config : Config} {session : SessionConfig} {autoshutdown : Bool}

/-- What a finalize under way has behind it. -/
def Progress (manager : SessionManager) (finalize : Finalize) : Prop :=
  match finalize.point with
  | .ended => manager.saves ≠ []
  | .request | .complete =>
    manager.saves ≠ [] ∧ ∃ report ∈ manager.published, report.1.payload = .sessionEnded
  | .returned => False
  | _ => True

theorem Progress.mono {manager manager' : SessionManager} {finalize : Finalize}
    (h : Progress manager finalize) (hgrows : manager.Grows manager') : Progress manager' finalize := by
  unfold Progress at h ⊢
  split at h
  · exact hgrows.saved h
  · obtain ⟨hsaved, report, hreport, hended⟩ := h
    exact ⟨hgrows.saved hsaved, report, hgrows.published report hreport, hended⟩
  · obtain ⟨hsaved, report, hreport, hended⟩ := h
    exact ⟨hgrows.saved hsaved, report, hgrows.published report hreport, hended⟩
  · exact h
  · trivial

/-- A step of finalize brings it to its end, or on with the flag as it was. -/
theorem Progress.step {manager : SessionManager} {finalize : Finalize}
    (h : Progress manager finalize) (hsession : manager.agent.state.currentSession.isSome) (ok : Bool) :
    (finalizeStep lower session manager finalize ok).2.point = .returned ∧
        (finalizeStep lower session manager finalize ok).1.Finalized ∨
      (finalizeStep lower session manager finalize ok).1.finalizeDone = manager.finalizeDone ∧
        Progress (finalizeStep lower session manager finalize ok).1
          (finalizeStep lower session manager finalize ok).2 := by
  obtain ⟨current, hcurrent⟩ := Option.isSome_iff_exists.mp hsession
  unfold finalizeStep
  unfold Progress at h
  cases hpoint : finalize.point with
  | stamp => exact .inr ⟨by simp [hcurrent], by simp [hcurrent, Progress, Finalize.goto]⟩
  | identify => exact .inr ⟨by simp [hcurrent], by simp [hcurrent, Progress]⟩
  | clockShift =>
    cases session.skipTimeManipulation || session.offsetSecs == 0 <;> cases ok <;> exact .inr ⟨rfl, trivial⟩
  | save => exact .inr ⟨rfl, by simp [Progress, Finalize.goto]⟩
  | ended =>
    simp only [hpoint] at h
    exact .inr ⟨rfl, h, _, List.mem_append_right _ (List.mem_singleton_self _), rfl⟩
  | request =>
    simp only [hpoint] at h
    obtain ⟨hsaved, report, hreport, hended⟩ := h
    cases session.skipRebootAndShutdown
    · exact .inr ⟨rfl, hsaved, report, List.mem_append_left _ hreport, hended⟩
    · exact .inr ⟨rfl, hsaved, report, hreport, hended⟩
  | complete =>
    simp only [hpoint] at h
    exact .inl ⟨rfl, rfl, h.1, h.2⟩
  | returned => simp [hpoint] at h
  | _ => exact .inr ⟨rfl, trivial⟩

/-! ## The invariant -/

def Task.Running (manager : SessionManager) : Task → Prop
  | .finalizing finalize => manager.finalized = true ∧ Progress manager finalize
  | _ => True

/-- Somebody ran the finalize, or is still at it and will not be dropped. -/
def Attended (manager : SessionManager) (consumer : Task) : Prop :=
  manager.Finalized ∨ ∃ finalize, consumer = .finalizing finalize

/-- While the host loops, a finalize that was begun is attended or in the deadline task; once it has
left, the deadline task does not matter. -/
def Host.Awaits (manager : SessionManager) (deadline consumer : Task) (cancelled : Bool) : Host → Prop
  | .looping =>
    cancelled = false ∧ (manager.finalized = true →
      Attended manager consumer ∨ ∃ finalize, deadline = .finalizing finalize)
  | .accepting finalize => cancelled = false ∧ (Task.finalizing finalize).Running manager
  | .shuttingDown left => left ≠ .channelClosed → Attended manager consumer
  | .returned left => left ≠ .channelClosed → manager.Finalized

structure RunningSession.Inv (s : RunningSession) : Prop where
  session : s.manager.agent.state.currentSession.isSome
  done : s.manager.finalizeDone = true → s.manager.Finalized
  deadline : s.deadline.Running s.manager
  consumer : s.consumer.Running s.manager
  host : s.host.Awaits s.manager s.deadline s.consumer s.schedulerCancelled

theorem Task.Running.mono {manager manager' : SessionManager} {task : Task}
    (h : task.Running manager) (hgrows : manager.Grows manager') : task.Running manager' := by
  cases task with
  | finalizing finalize => exact ⟨hgrows.taken.trans h.1, h.2.mono hgrows⟩
  | _ => trivial

theorem Attended.mono {manager manager' : SessionManager} {consumer : Task}
    (h : Attended manager consumer) (hgrows : manager.Grows manager') : Attended manager' consumer :=
  h.imp_left hgrows.finalizedNow

theorem Host.Awaits.mono {manager manager' : SessionManager} {deadline consumer : Task} {cancelled : Bool}
    {host : Host} (h : host.Awaits manager deadline consumer cancelled) (hgrows : manager.Grows manager') :
    host.Awaits manager' deadline consumer cancelled := by
  cases host with
  | looping => exact ⟨h.1, fun htaken => (h.2 (hgrows.taken ▸ htaken)).imp_left (·.mono hgrows)⟩
  | accepting finalize => exact ⟨h.1, h.2.mono hgrows⟩
  | shuttingDown left => exact fun hleft => (h hleft).mono hgrows
  | returned left => exact fun hleft => hgrows.finalizedNow (h hleft)

/-- A finalize that was not begun is in no task. -/
theorem Task.Running.idle {manager manager' : SessionManager} {task : Task}
    (h : task.Running manager) (hidle : manager.finalized = false) : task.Running manager' := by
  cases task with
  | finalizing finalize => exact absurd (hidle.symm.trans h.1) Bool.false_ne_true
  | _ => trivial

/-- Entering takes the flag, or finds it taken. -/
theorem enterFinalize_cases (manager : SessionManager) (reason : FinalizeReason) (nowMs : ℤ) :
    (manager.finalized = true ∧ enterFinalize manager reason nowMs = (manager, .finished)) ∨
      ∃ finalize, manager.finalized = false ∧
        enterFinalize manager reason nowMs = ({ manager with finalized := true }, .finalizing finalize) ∧
        Progress { manager with finalized := true } finalize := by
  unfold enterFinalize finalizeSwap
  cases hfinalized : manager.finalized with
  | true => exact .inl ⟨rfl, rfl⟩
  | false => exact .inr ⟨_, rfl, rfl, trivial⟩

theorem SessionManager.Finalized.take {manager : SessionManager} (h : manager.Finalized) :
    { manager with finalized := true : SessionManager }.Finalized :=
  ⟨h.done, h.saved, h.ended⟩

/-- Taking the flag leaves a host behind its loop where it was. -/
theorem Host.Awaits.take {manager : SessionManager} {deadline deadline' consumer consumer' : Task}
    {cancelled : Bool} {host : Host} (h : host.Awaits manager deadline consumer cancelled)
    (hhost : host ≠ .looping) (hidle : manager.finalized = false) (hconsumer : consumer.Running manager) :
    host.Awaits { manager with finalized := true } deadline' consumer' cancelled := by
  cases host with
  | looping => exact absurd rfl hhost
  | accepting finalize => exact absurd (hidle.symm.trans h.2.1) Bool.false_ne_true
  | shuttingDown left =>
    intro hleft
    obtain hfinalized | ⟨finalize, htask⟩ := h hleft
    · exact .inl hfinalized.take
    · rw [htask] at hconsumer
      exact absurd (hidle.symm.trans hconsumer.1) Bool.false_ne_true
  | returned left => exact fun hleft => (h hleft).take

/-- A consumer that never began a finalize may stop. -/
theorem Host.Awaits.finish {manager : SessionManager} {deadline : Task} {cancelled : Bool} {host : Host}
    (h : host.Awaits manager deadline .waiting cancelled) : host.Awaits manager deadline .finished cancelled := by
  have hattended (h : Attended manager .waiting) : Attended manager .finished :=
    .inl (h.resolve_right (by simp))
  cases host with
  | looping => exact ⟨h.1, fun htaken => (h.2 htaken).imp_left hattended⟩
  | accepting finalize => exact h
  | shuttingDown left => exact fun hleft => hattended (h hleft)
  | returned left => exact h

/-- What `resumeFinalize` leaves. -/
structure Resumed (manager manager' : SessionManager) (task : Task) : Prop where
  grows : manager.Grows manager'
  done : (manager.finalizeDone = true → manager.Finalized) → manager'.finalizeDone = true → manager'.Finalized
  running : task.Running manager'
  outcome : (task = .finished ∧ manager'.Finalized) ∨ ∃ next, task = .finalizing next

theorem resumed {manager : SessionManager} {finalize : Finalize}
    (hrunning : (Task.finalizing finalize).Running manager)
    (hsession : manager.agent.state.currentSession.isSome) (ok : Bool) :
    Resumed manager (resumeFinalize lower session manager finalize ok).1
      (resumeFinalize lower session manager finalize ok).2 := by
  have hgrows := @finalizeStep_grows lower session manager finalize ok
  obtain ⟨hreturned, hfinalized⟩ | ⟨hdone, hprogress⟩ :=
    @Progress.step lower session manager finalize hrunning.2 hsession ok
  · have htask : (resumeFinalize lower session manager finalize ok).2 = .finished := by
      simp [resumeFinalize, hreturned]
    exact ⟨hgrows, fun _ _ => hfinalized, htask ▸ trivial, .inl ⟨htask, hfinalized⟩⟩
  · have hpoint : (finalizeStep lower session manager finalize ok).2.point ≠ .returned := by
      intro hpoint
      simp [Progress, hpoint] at hprogress
    have htask : (resumeFinalize lower session manager finalize ok).2 =
        .finalizing (finalizeStep lower session manager finalize ok).2 := by
      simp [resumeFinalize, hpoint]
    refine ⟨hgrows, fun hbefore hnow => ?_, ?_, .inr ⟨_, htask⟩⟩
    · exact hgrows.finalizedNow (hbefore (hdone ▸ hnow))
    · rw [htask]
      exact ⟨hgrows.taken.trans hrunning.1, hprogress⟩

theorem Resumed.attended {manager manager' : SessionManager} {task : Task} (h : Resumed manager manager' task) :
    Attended manager' task :=
  h.outcome.imp (·.2) id

/-! ## What the host awaits, one party at a time -/

section
variable {manager manager' : SessionManager} {deadline consumer task : Task} {cancelled : Bool} {host : Host}

/-- The deadline finds the flag taken, by somebody else. -/
theorem Host.Awaits.lose (h : host.Awaits manager .waiting consumer cancelled) :
    host.Awaits manager .finished consumer cancelled := by
  cases host with
  | looping => exact ⟨h.1, fun htaken => .inl ((h.2 htaken).resolve_right (by simp))⟩
  | _ => exact h

theorem Host.Awaits.deadlineTakes (h : host.Awaits manager deadline consumer cancelled)
    (hidle : manager.finalized = false) (hconsumer : consumer.Running manager) (finalize : Finalize) :
    host.Awaits { manager with finalized := true } (.finalizing finalize) consumer cancelled := by
  cases host with
  | looping => exact ⟨h.1, fun _ => .inr ⟨finalize, rfl⟩⟩
  | _ => exact h.take (by simp) hidle hconsumer

theorem Host.Awaits.deadlineResumes (h : host.Awaits manager deadline consumer cancelled)
    (hresumed : Resumed manager manager' task) : host.Awaits manager' task consumer cancelled := by
  cases host with
  | looping => exact ⟨h.1, fun _ => hresumed.outcome.imp (fun h => .inl h.2) id⟩
  | _ => exact h.mono hresumed.grows

/-- The scheduler is cancelled behind the loop only, where the deadline task does not matter. -/
theorem Host.Awaits.drop (h : host.Awaits manager deadline consumer true) :
    host.Awaits manager .dropped consumer true := by
  cases host with
  | looping => exact absurd h.1 (by decide)
  | _ => exact h

theorem Host.Awaits.consumerTakes (h : host.Awaits manager deadline consumer cancelled)
    (hidle : manager.finalized = false) (hconsumer : consumer.Running manager) (finalize : Finalize) :
    host.Awaits { manager with finalized := true } deadline (.finalizing finalize) cancelled := by
  cases host with
  | looping => exact ⟨h.1, fun _ => .inl (.inr ⟨finalize, rfl⟩)⟩
  | shuttingDown left => exact fun _ => .inr ⟨finalize, rfl⟩
  | _ => exact h.take (by simp) hidle hconsumer

theorem Host.Awaits.consumerResumes (h : host.Awaits manager deadline consumer cancelled)
    (hresumed : Resumed manager manager' task) : host.Awaits manager' deadline task cancelled := by
  cases host with
  | looping => exact ⟨h.1, fun _ => .inl hresumed.attended⟩
  | shuttingDown left => exact fun _ => hresumed.attended
  | _ => exact h.mono hresumed.grows

end

theorem RunningSession.inv_start (loaded : ScopeState) (nowMs : ℤ) (busCapacity : ℕ) :
    (RunningSession.start lower config session loaded nowMs busCapacity).Inv := by
  refine ⟨?_, by simp [RunningSession.start], trivial, trivial, rfl, fun h => nomatch h⟩
  simp [RunningSession.start, boot, openSessionIfNeeded, ScopeState.currentSession]

theorem RunningSession.Inv.step {s : RunningSession} (h : s.Inv) (op : HostOp)
    (hop : stopsAlone s op = true) : (hostStep lower config session autoshutdown s op).Inv := by
  have hhost := h.host
  cases op with
  | deadline nowMs =>
    simp only [hostStep]
    split
    · rename_i hguard
      have hwaiting : s.deadline = .waiting := by simp_all
      obtain ⟨_, henter⟩ | ⟨finalize, hidle, henter, hprogress⟩ :=
        enterFinalize_cases s.manager .deadline nowMs
      · rw [henter]
        rw [hwaiting] at hhost
        exact ⟨h.session, h.done, trivial, h.consumer, hhost.lose⟩
      · rw [henter]
        exact ⟨h.session, fun hdone => (h.done hdone).take, ⟨rfl, hprogress⟩, h.consumer.idle hidle,
          hhost.deadlineTakes hidle h.consumer finalize⟩
    · exact h
  | deadlineStep ok =>
    cases htask : s.deadline with
    | finalizing finalize =>
      have hr := @resumed lower session s.manager finalize (htask ▸ h.deadline) h.session ok
      simp only [hostStep, htask]
      exact ⟨hr.grows.session h.session, hr.done h.done, hr.running, h.consumer.mono hr.grows,
        hhost.deadlineResumes hr⟩
    | _ =>
      simp only [hostStep, htask]
      exact h
  | dropScheduler =>
    simp only [hostStep]
    split
    · rename_i hdrop
      have hcancelled : s.schedulerCancelled = true := (Bool.and_eq_true_iff.mp hdrop).1
      rw [hcancelled] at hhost
      exact ⟨h.session, h.done, trivial, h.consumer, hcancelled ▸ hhost.drop⟩
    · exact h
  | scopeDied nowMs =>
    simp only [hostStep]
    split
    · rename_i hguard
      have hwaiting : s.consumer = .waiting := by simp_all
      obtain ⟨_, henter⟩ | ⟨finalize, hidle, henter, hprogress⟩ :=
        enterFinalize_cases s.manager .deadScope nowMs
      · rw [henter]
        rw [hwaiting] at hhost
        exact ⟨h.session, h.done, h.deadline, trivial, hhost.finish⟩
      · rw [henter]
        exact ⟨h.session, fun hdone => (h.done hdone).take, h.deadline.idle hidle, ⟨rfl, hprogress⟩,
          hhost.consumerTakes hidle h.consumer finalize⟩
    · exact h
  | consumerStep ok =>
    cases htask : s.consumer with
    | finalizing finalize =>
      have hr := @resumed lower session s.manager finalize (htask ▸ h.consumer) h.session ok
      simp only [hostStep, htask]
      exact ⟨hr.grows.session h.session, hr.done h.done, h.deadline.mono hr.grows, hr.running,
        hhost.consumerResumes hr⟩
    | _ =>
      simp only [hostStep, htask]
      exact h
  | consumerStops =>
    simp only [hostStep]
    split
    · rename_i hguard
      have hwaiting : s.consumer = .waiting := by simp_all
      rw [hwaiting] at hhost
      exact ⟨h.session, h.done, h.deadline, trivial, hhost.finish⟩
    · exact h
  | serviceStop nowMs =>
    cases hs : s.host with
    | looping =>
      rw [hs] at hhost
      simp only [hostStep, hs]
      obtain ⟨htaken, henter⟩ | ⟨finalize, hidle, henter, hprogress⟩ :=
        enterFinalize_cases s.manager .inboundRequest nowMs
      · rw [henter]
        refine ⟨h.session, h.done, h.deadline, h.consumer, fun _ => ?_⟩
        refine (hhost.2 htaken).resolve_right ?_
        rintro ⟨finalize, htask⟩
        simp [stopsAlone, hs, htask] at hop
      · rw [henter]
        exact ⟨h.session, fun hdone => (h.done hdone).take, h.deadline.idle hidle, h.consumer.idle hidle,
          hhost.1, rfl, hprogress⟩
    | _ =>
      simp only [hostStep, hs]
      exact h
  | hostStep ok =>
    cases hs : s.host with
    | accepting finalize =>
      rw [hs] at hhost
      have hr := @resumed lower session s.manager finalize hhost.2 h.session ok
      simp only [hostStep, hs]
      obtain ⟨htask, hfinalized⟩ | ⟨next, htask⟩ := hr.outcome
      · rw [htask]
        exact ⟨hr.grows.session h.session, hr.done h.done, h.deadline.mono hr.grows, h.consumer.mono hr.grows,
          fun _ => .inl hfinalized⟩
      · have hrunning := hr.running
        rw [htask] at hrunning ⊢
        exact ⟨hr.grows.session h.session, hr.done h.done, h.deadline.mono hr.grows, h.consumer.mono hr.grows,
          hhost.1, hrunning⟩
    | _ =>
      simp only [hostStep, hs]
      exact h
  | poll =>
    simp only [hostStep]
    split
    · rename_i hpoll
      have hdone : s.manager.finalizeDone = true := (Bool.and_eq_true_iff.mp hpoll).2
      exact ⟨h.session, h.done, h.deadline, h.consumer, fun _ => .inl (h.done hdone)⟩
    · exact h
  | stopClosed =>
    simp only [hostStep]
    split
    · exact ⟨h.session, h.done, h.deadline, h.consumer, fun hleft => absurd rfl hleft⟩
    · exact h
  | stopPlugins =>
    simp only [hostStep]
    split <;> exact ⟨h.session, h.done, h.deadline, h.consumer, h.host⟩
  | joinConsumer =>
    cases hs : s.host with
    | shuttingDown left =>
      rw [hs] at hhost
      simp only [hostStep, hs]
      split
      · rename_i hjoin
        have hconsumer : s.consumer = .finished := by simpa using (Bool.and_eq_true_iff.mp hjoin).2
        refine ⟨h.session, h.done, h.deadline, h.consumer, fun hleft => ?_⟩
        obtain hfinalized | ⟨finalize, htask⟩ := hhost hleft
        · exact hfinalized
        · simp [hconsumer] at htask
      · exact h
    | _ =>
      simp only [hostStep, hs]
      exact h
  | pipeline op =>
    have hgrows := @pipeline_grows lower config s.manager op
    exact ⟨hgrows.session h.session, fun hdone => hgrows.finalizedNow (h.done hdone), h.deadline.mono hgrows,
      h.consumer.mono hgrows, h.host.mono hgrows⟩

/-- A host that returned behind a `ServiceStop` or a finalized session left the finalize completed, if
no `ServiceStop` was accepted while the deadline task was inside its finalize. -/
theorem host_awaits_finalize (loaded : ScopeState) (nowMs : ℤ) (busCapacity : ℕ) (ops : List HostOp)
    (halone : Along (hostStep lower config session autoshutdown) (fun s op => stopsAlone s op = true)
      (.start lower config session loaded nowMs busCapacity) ops) (left : Left)
    (hreturned : (run (hostStep lower config session autoshutdown)
      (.start lower config session loaded nowMs busCapacity) ops).host = .returned left)
    (hleft : left ≠ .channelClosed) :
    (run (hostStep lower config session autoshutdown)
      (.start lower config session loaded nowMs busCapacity) ops).manager.Finalized := by
  have hinv := halone.invariant (fun s op h hop => h.step op hop)
    (@RunningSession.inv_start lower config session loaded nowMs busCapacity)
  have hhost := hinv.host
  rw [hreturned] at hhost
  exact hhost hleft

end

/-- A `ServiceStop` while the deadline task awaits `session.finalizing`: the host is back from the
lost swap at once, and cancels the scheduler under the finalize. -/
theorem stopDuringDeadline_abandons :
    ∃ s, s = run (hostStep id ⟨"explorer.exe", "evil.exe", true, ⟨[]⟩, ⟨"actor.exe", []⟩⟩
          ⟨[1], 0, 0, true, true⟩ true)
        (.start id ⟨"explorer.exe", "evil.exe", true, ⟨[]⟩, ⟨"actor.exe", []⟩⟩ ⟨[1], 0, 0, true, true⟩
          ⟨1, []⟩ 0 16)
        [.deadline 1000, .deadlineStep true, .deadlineStep true, .serviceStop 1000, .dropScheduler,
         .stopPlugins, .consumerStops, .joinConsumer] ∧
      s.host = .returned .serviceStop ∧ ¬ s.manager.Finalized := by
  refine ⟨_, rfl, by decide, fun h => ?_⟩
  exact h.saved rfl

/-- A `ServiceStop` on its own: the host runs the finalize itself. -/
theorem lone_stop_finalizes :
    (run (hostStep id ⟨"explorer.exe", "evil.exe", true, ⟨[]⟩, ⟨"actor.exe", []⟩⟩
        ⟨[1], 0, 0, true, true⟩ true)
      (.start id ⟨"explorer.exe", "evil.exe", true, ⟨[]⟩, ⟨"actor.exe", []⟩⟩ ⟨[1], 0, 0, true, true⟩
        ⟨1, []⟩ 0 16)
      (.serviceStop 1000 :: List.replicate 13 (.hostStep true) ++
        [.stopPlugins, .consumerStops, .joinConsumer])).manager.Finalized :=
  host_awaits_finalize ⟨1, []⟩ 0 16 _ (by decide) .serviceStop (by decide) (by decide)

end SecOutfall.Agent
